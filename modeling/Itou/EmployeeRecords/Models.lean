import Itou.JobApplications.Models
import Itou.Lib.Outcomes

/-!
# Employee records

`EmployeeRecord` with its validation and its workflow. The fields that identify a record to the ASP (`siret`,
`asp_id`, `asp_measure` and `approval_number`) are left out: nothing here depends on their values.
-/

namespace Itou.EmployeeRecords

open Itou.Lib
open Itou.JobApplications (JobApplicationState)

/-! ## Choices -/

/-- `Status`. -/
inductive Status where
  | new
  | ready
  | sent
  | rejected
  | processed
  | disabled
  | archived
  deriving DecidableEq

/-- What a transition can fail with. -/
inductive TransitionError where
  | invalidTransition
  | forbiddenTransition
  | validation (message : String)
  | value (message : String)
  | attribute
  | integrity (constraint : String)
  deriving DecidableEq

/-! ## What a record reads -/

/-- The `hexa_*` fields of a profile. -/
structure HexaAddress where
  laneNumber : String
  stdExtension : String
  nonStdExtension : String
  laneType : String
  laneName : String
  additionalAddress : String
  postCode : String
  commune : Option Nat
  deriving DecidableEq

structure JobSeekerProfile where
  educationLevel : String
  hexaAddress : HexaAddress
  deriving DecidableEq

structure JobSeeker where
  title : String
  profile : JobSeekerProfile
  deriving DecidableEq

/-- A job application with the rows that `full_fetch` selects along. -/
structure JobApplication where
  state : JobApplicationState
  convention : Option Nat
  approval : Option Nat
  jobSeeker : JobSeeker
  deriving DecidableEq

/-! ## Validation -/

/-- `hexa_address_filled`. -/
def HexaAddress.filled (a : HexaAddress) : Bool :=
  a.laneName ≠ "" && a.laneType ≠ "" && a.postCode ≠ "" && a.commune.isSome

/-- `_clean_job_seeker_hexa_address`: all or nothing. -/
def HexaAddress.clean (a : HexaAddress) : Except TransitionError Unit :=
  if a.laneNumber = "" ∧ a.stdExtension = "" ∧ a.nonStdExtension = "" ∧ a.laneType = "" ∧ a.laneName = "" ∧
      a.additionalAddress = "" ∧ a.postCode = "" ∧ a.commune = none then .ok ()
  else if a.laneType = "" then .error (.validation "Le type de voie est obligatoire")
  else if a.laneName = "" then .error (.validation "Le nom de voie est obligatoire")
  else if a.postCode = "" then .error (.validation "Le code postal est obligatoire")
  else if a.commune = none then .error (.validation "La commune INSEE est obligatoire")
  else .ok ()

/-- `_clean_job_seeker_details`. -/
def JobSeeker.cleanDetails (j : JobSeeker) : Except TransitionError Unit :=
  if j.title = "" then .error (.validation "La civilité du demandeur d'emploi est obligatoire")
  else if j.profile.educationLevel = "" then
    .error (.validation "Le niveau de formation du demandeur d'emploi est obligatoire")
  else .ok ()

/-- `clean_model`. -/
def JobSeeker.cleanModel (j : JobSeeker) : Except TransitionError Unit := do
  j.cleanDetails
  j.profile.hexaAddress.clean

/-- `_clean_job_application`. -/
def JobApplication.cleanJobApplication (a : JobApplication) : Except TransitionError Unit :=
  if a.convention = none then
    .error (.validation "La structure actuelle ne dispose d'aucune convention")
  else if a.state ≠ .accepted then .error (.validation "La candidature doit être acceptée")
  else if a.approval = none then .error (.validation "L'embauche n'est pas reliée à un PASS IAE")
  else .ok ()

/-- `EmployeeRecord.clean`, which only reads the job application. `User.clean` does not fail. -/
def JobApplication.clean (a : JobApplication) : Except TransitionError Unit := do
  a.cleanJobApplication
  a.jobSeeker.cleanModel

/-- `_fill_denormalized_fields`: it reads through the convention and the approval. -/
def JobApplication.fillDenormalizedFields (a : JobApplication) : Except TransitionError Unit :=
  if a.convention = none ∨ a.approval = none then .error .attribute else .ok ()

/-! ## Rows -/

/-- The columns of `ASPExchangeInformation`. A batch file is known by the second of its upload. -/
structure AspExchangeInformation where
  aspProcessingCode : Option String
  aspProcessingLabel : Option String
  aspBatchFile : Option DateTime
  aspBatchLineNumber : Option Nat
  archivedJson : Option String
  deriving DecidableEq

def AspExchangeInformation.empty : AspExchangeInformation := ⟨none, none, none, none, none⟩

def aspProcessingSuccessCode : String := "0000"

def aspDuplicateErrorCode : String := "3436"

/-- A row of `employee_record_employeerecord`. -/
structure EmployeeRecord extends AspExchangeInformation where
  pk : Nat
  status : Status
  processedAt : Option DateTime
  processedAsDuplicate : Bool
  updatedAt : DateTime
  deriving DecidableEq

/-- `get_remote_path`. -/
def getRemotePath (now : DateTime) : DateTime := ⟨now.date, now.micros / 1000000 * 1000000⟩

/-- Two rows with one line of one file. -/
def AspExchangeInformation.SameLine (info info' : AspExchangeInformation) : Prop :=
  info.aspBatchFile.isSome ∧ info.aspBatchFile = info'.aspBatchFile ∧
    info.aspBatchLineNumber.isSome ∧ info.aspBatchLineNumber = info'.aspBatchLineNumber

instance (info info' : AspExchangeInformation) : Decidable (info.SameLine info') :=
  inferInstanceAs (Decidable (_ ∧ _))

/-- What the construction of an `EmployeeRecordBatch` sets on its element of this line. -/
def AspExchangeInformation.number (info : AspExchangeInformation) (lineNumber : Nat) : AspExchangeInformation :=
  { info with aspBatchLineNumber := some lineNumber, aspProcessingCode := none, aspProcessingLabel := none }

def AspExchangeInformation.setAspBatchInformation (info : AspExchangeInformation) (file : DateTime)
    (lineNumber : Nat) (archive : String) : AspExchangeInformation :=
  { info with aspBatchFile := some file, aspBatchLineNumber := some lineNumber, archivedJson := some archive }

def AspExchangeInformation.setAspProcessingInformation (info : AspExchangeInformation) (code label archive : String) :
    AspExchangeInformation :=
  { info with aspProcessingCode := some code, aspProcessingLabel := some label, archivedJson := some archive }

/-! ## Workflow -/

/-- `EmployeeRecordTransition`. -/
inductive Transition where
  | ready
  | waitForAspResponse
  | reject
  | process
  | disable
  | enable
  | archive
  | unarchiveNew
  | unarchiveProcessed
  | unarchiveRejected
  deriving DecidableEq

namespace Transition

def canBeDisabledStates : List Status := [.new, .rejected, .processed]

def canBeArchivedStates : List Status := [.new, .ready, .rejected, .processed, .disabled]

def sources : Transition → List Status
  | ready => [.new, .rejected, .disabled, .processed]
  | waitForAspResponse => [.ready]
  | reject => [.sent]
  | process => [.sent]
  | disable => canBeDisabledStates
  | enable => [.disabled]
  | archive => canBeArchivedStates
  | unarchiveNew => [.archived]
  | unarchiveProcessed => [.archived]
  | unarchiveRejected => [.archived]

def target : Transition → Status
  | ready => .ready
  | waitForAspResponse => .sent
  | reject => .rejected
  | process => .processed
  | disable => .disabled
  | enable => .new
  | archive => .archived
  | unarchiveNew => .new
  | unarchiveProcessed => .processed
  | unarchiveRejected => .rejected

end Transition

namespace EmployeeRecord

variable (r : EmployeeRecord) (now : DateTime) (jobApplication : JobApplication)

/-- Take a transition: the state check, the transition check, the body, the change of state, and the save, which
sets `updated_at`. -/
def perform (transition : Transition) (check : Bool) (body : Except TransitionError EmployeeRecord) :
    Except TransitionError EmployeeRecord :=
  if r.status ∉ transition.sources then .error .invalidTransition
  else if !check then .error .forbiddenTransition
  else body.map fun r' => { r' with status := transition.target, updatedAt := now }

/-- `ready`, after the address of the job seeker has been formatted. -/
def ready : Except TransitionError EmployeeRecord :=
  r.perform now .ready true do
    jobApplication.clean
    jobApplication.fillDenormalizedFields
    return r

def waitForAspResponse (file : DateTime) (lineNumber : Nat) (archive : String) :
    Except TransitionError EmployeeRecord :=
  r.perform now .waitForAspResponse true do
    jobApplication.clean
    return { r with
      toAspExchangeInformation := r.toAspExchangeInformation.setAspBatchInformation file lineNumber archive }

def reject (code label archive : String) : Except TransitionError EmployeeRecord :=
  r.perform now .reject true do
    jobApplication.clean
    return { r with
      toAspExchangeInformation := r.toAspExchangeInformation.setAspProcessingInformation code label archive }

def process (code label archive : String) (asDuplicate : Bool) : Except TransitionError EmployeeRecord :=
  r.perform now .process true
    (if asDuplicate && code ≠ aspDuplicateErrorCode then
      .error (.value ("Code needs to be " ++ aspDuplicateErrorCode ++ " and not " ++ code ++
        " when as_duplicate=True"))
    else jobApplication.clean.map fun _ => { r with
      processedAt := some now
      processedAsDuplicate := asDuplicate
      toAspExchangeInformation := r.toAspExchangeInformation.setAspProcessingInformation code
        (if asDuplicate then "Statut forcé suite à doublon ASP" else label) archive })

def disable : Except TransitionError EmployeeRecord := r.perform now .disable true (.ok r)

def enable : Except TransitionError EmployeeRecord :=
  r.perform now .enable true (jobApplication.fillDenormalizedFields.map fun _ => r)

/-- `archive`, with what `check_archive` finds on the approval of the job application. -/
def archive (approvalIsValid approvalCanBeProlonged : Bool) : Except TransitionError EmployeeRecord :=
  r.perform now .archive (jobApplication.approval.isSome && !approvalIsValid && !approvalCanBeProlonged)
    (.ok { r with archivedJson := none })

/-- `status_based_on_asp_processing_code`. -/
def statusBasedOnAspProcessingCode : Option Status :=
  match r.aspProcessingCode with
  | none => some .new
  | some code =>
      if code = "" then some .new
      else if code = "0000" ∨ code = aspDuplicateErrorCode then some .processed
      else if code.toList.take 2 ∈ ["32".toList, "33".toList, "34".toList] then some .rejected
      else none

/-- The transitions of `unarchive`, each with its `transition_check`. -/
def unarchiveTo (transition : Transition) : Except TransitionError EmployeeRecord :=
  r.perform now transition (r.statusBasedOnAspProcessingCode = some transition.target) (.ok r)

variable {r now jobApplication} {r' : EmployeeRecord} {transition : Transition}

theorem perform_eq_ok {check : Bool} {body : Except TransitionError EmployeeRecord} :
    r.perform now transition check body = .ok r' ↔ r.status ∈ transition.sources ∧ check = true ∧
      ∃ r₁, body = .ok r₁ ∧ r' = { r₁ with status := transition.target, updatedAt := now } := by
  unfold perform
  split
  · rename_i h
    exact ⟨nofun, fun hok => absurd hok.1 h⟩
  · rename_i h
    rw [not_not] at h
    split
    · rename_i hcheck
      rw [Bool.not_eq_true'] at hcheck
      simp [hcheck]
    · rename_i hcheck
      rw [Bool.not_eq_true', Bool.not_eq_false] at hcheck
      simp only [map_eq_ok, h, hcheck, true_and, eq_comm (b := r')]

/-- A transition gives the record its target, and what the body leaves stays. -/
theorem perform_frame {check : Bool} {body : Except TransitionError EmployeeRecord}
    (h : r.perform now transition check body = .ok r') {p : EmployeeRecord → Prop}
    (hbody : ∀ r₁, body = .ok r₁ → p { r₁ with status := transition.target, updatedAt := now }) :
    r'.status = transition.target ∧ p r' := by
  obtain ⟨_, _, r₁, hr₁, rfl⟩ := perform_eq_ok.mp h
  exact ⟨rfl, hbody r₁ hr₁⟩

/-- `process` keeps the file of the record. -/
theorem process_frame {code label archive : String} {asDuplicate : Bool}
    (h : r.process now jobApplication code label archive asDuplicate = .ok r') :
    r'.status = .processed ∧ r'.aspBatchFile = r.aspBatchFile ∧ r'.pk = r.pk := by
  refine perform_frame h (p := fun r' => r'.aspBatchFile = r.aspBatchFile ∧ r'.pk = r.pk) fun r₁ hr₁ => ?_
  split at hr₁
  · cases hr₁
  · obtain ⟨_, _, rfl⟩ := map_eq_ok.mp hr₁
    exact ⟨rfl, rfl⟩

/-- `reject` keeps the file of the record and stores the code. -/
theorem reject_frame {code label archive : String}
    (h : r.reject now jobApplication code label archive = .ok r') :
    r'.status = .rejected ∧ r'.aspBatchFile = r.aspBatchFile ∧ r'.aspProcessingCode = some code := by
  refine perform_frame h (p := fun r' => r'.aspBatchFile = r.aspBatchFile ∧ r'.aspProcessingCode = some code)
    fun r₁ hr₁ => ?_
  obtain ⟨_, _, hr₁⟩ := bind_eq_ok.mp hr₁
  cases hr₁
  exact ⟨rfl, rfl⟩

end EmployeeRecord

/-- `wait_for_asp_response` validates the record once more. -/
theorem EmployeeRecord.waitForAspResponse_eq_ok {r r' : EmployeeRecord} {now file : DateTime}
    {jobApplication : JobApplication} {lineNumber : Nat} {archive : String} :
    r.waitForAspResponse now jobApplication file lineNumber archive = .ok r' ↔
      r.status = .ready ∧ jobApplication.clean = .ok () ∧
        r' = { r with
          toAspExchangeInformation := r.toAspExchangeInformation.setAspBatchInformation file lineNumber archive
          status := .sent
          updatedAt := now } := by
  simp only [waitForAspResponse, perform_eq_ok, Transition.sources, List.mem_singleton, true_and, bind_eq_ok,
    Transition.target]
  refine and_congr_right fun _ => ⟨?_, ?_⟩
  · rintro ⟨r₁, ⟨_, hclean, hr₁⟩, rfl⟩
    cases hr₁
    exact ⟨hclean, rfl⟩
  · rintro ⟨hclean, rfl⟩
    exact ⟨_, ⟨(), hclean, rfl⟩, rfl⟩

end Itou.EmployeeRecords
