import Itou.Approvals.Models
import Itou.EmployeeRecords.Notifications
import Itou.EmployeeRecords.Upload
import Itou.Lib.Json
import Itou.Lib.Queries
import Itou.Lib.Runs

/-!
# The feedback of the ASP

`download_json_file` with the `_parse_feedback_file` of `transfer_employee_records`, without `dry_run`: each file in a
transaction of its own, line by line. A feedback file is any JSON document, under any name.
-/

namespace Itou.EmployeeRecords.Feedback

open Itou.Lib

/-! ## Documents -/

/-- A JSON document, as `JSONParser` gives it. A number is its literal. -/
abbrev Json := JsonValue String

/-- What ends the processing of a file. -/
inductive FeedbackError where
  | ignoreFile (reason : String)
  | parse
  | key (key : String)
  | type
  | attribute
  | value
  | validation (message : String)
  | data (column : String)
  | transition (e : TransitionError)
  deriving DecidableEq

section Documents

variable (key : String)

/-- `[key]`. -/
def getItem : Json → Except FeedbackError Json
  | .object fields =>
      match fields.lookup key with
      | some value => .ok value
      | none => .error (.key key)
  | _ => .error .type

/-- `.get(key)`. -/
def getOrNone : Json → Except FeedbackError Json
  | .object fields => .ok ((fields.lookup key).getD .null)
  | _ => .error .attribute

end Documents

/-- The elements of a loop over the document. -/
def elementsOf (document : Json) : Except FeedbackError (List Json) := document.elements.elim (.error .type) .ok

/-- What Django makes of a value for an integer column, a text column and a JSON column. -/
structure Columns where
  integer : Json → Except FeedbackError (Option Int)
  char : Json → Option String
  json : Json → Except FeedbackError String

/-- `FEEDBACK_FILE_SUFFIX`. -/
def feedbackFileSuffix : List Char := "_FichierRetour".toList

/-- `RIAE_FS_`. -/
def filenameStart : String := "RIAE_FS_"

/-- `.json`. -/
def fileExtension : List Char := ".json".toList

/-- `REMOTE_PATH_FORMAT`, with a timestamp. -/
def remotePathFormat (timestamp : List Char) : String :=
  String.ofList (filenameStart.toList ++ timestamp ++ fileExtension)

/-- `validate_asp_batch_filename`. -/
def validateAspBatchFilename (value : String) : Except FeedbackError Unit :=
  if filenameStart.toList.isPrefixOf value.toList && fileExtension.isSuffixOf value.toList && value.length = 27 then
    .ok ()
  else .error (.validation ("Le format du nom de fichier ASP est incorrect: " ++ value))

/-- `feedback_filename`. -/
def feedbackFilename (filename : String) : Except FeedbackError String := do
  validateAspBatchFilename filename
  match filename.toList.splitOn '.' with
  | [path, ext] => .ok (String.ofList (path ++ feedbackFileSuffix ++ '.' :: ext))
  | _ => .error .value

/-- `batch_filename_from_feedback`. -/
def batchFilenameFromFeedback (filename : String) : Except FeedbackError String :=
  match filename.toList.splitOn '.' with
  | [path, ext] =>
      if feedbackFileSuffix.isSuffixOf path then
        .ok (String.ofList (path.take (path.length - feedbackFileSuffix.length) ++ '.' :: ext))
      else .error (.validation "Mauvais nom de fichier de retour ASP")
  | _ => .error .value

/-- The values of a line that are read. -/
structure Line where
  numLigne : Json
  codeTraitement : Json
  libelleTraitement : Json

/-- `MovementType.CREATION`. -/
def creation : String := "C"

/-- Read a line. -/
def readLine (raw : Json) : Except FeedbackError Line := do
  let typeMouvement ← getOrNone "typeMouvement" raw
  if !typeMouvement.isText creation then throw (.ignoreFile "Received 'typeMouvement' is not C")
  return ⟨← getItem "numLigne" raw, ← getItem "codeTraitement" raw, ← getItem "libelleTraitement" raw⟩

/-! ## Transitions -/

/-- What a transition stores of a line. -/
structure Stored where
  code : Option String
  label : Option String
  archive : String

/-- The columns of the record and of its log have four and two hundred characters. -/
def Stored.check (a : Stored) : Except FeedbackError Unit :=
  if a.code.any (4 < ·.length) then .error (.data "asp_processing_code")
  else if a.label.any (200 < ·.length) then .error (.data "asp_processing_label")
  else .ok ()

def setAspProcessingInformation (info : AspExchangeInformation) (a : Stored) : AspExchangeInformation :=
  { info with
    aspProcessingCode := a.code
    aspProcessingLabel := a.label
    archivedJson := some a.archive }

/-- `reject`, whose values can be null. -/
def reject (r : EmployeeRecord) (now : DateTime) (jobApplication : JobApplication) (a : Stored) :
    Except TransitionError EmployeeRecord :=
  r.perform now .reject true (jobApplication.clean.map fun _ =>
    { r with toAspExchangeInformation := setAspProcessingInformation r.toAspExchangeInformation a })

/-- `process`, whose values can be null. -/
def process (r : EmployeeRecord) (now : DateTime) (jobApplication : JobApplication) (a : Stored) (asDuplicate : Bool) :
    Except TransitionError EmployeeRecord :=
  r.perform now .process true
    (if asDuplicate && a.code ≠ some aspDuplicateErrorCode then
      .error (.value ("Code needs to be " ++ aspDuplicateErrorCode ++ " and not " ++ a.code.getD "None" ++
        " when as_duplicate=True"))
    else jobApplication.clean.map fun _ => { r with
      processedAt := some now
      processedAsDuplicate := asDuplicate
      toAspExchangeInformation := setAspProcessingInformation r.toAspExchangeInformation
        { a with label := if asDuplicate then some "Statut forcé suite à doublon ASP" else a.label } })

/-- The transition that the code of a line asks for. -/
def transitionFor (codeTraitement : Json) : Transition :=
  if codeTraitement.isText aspProcessingSuccessCode || codeTraitement.isText aspDuplicateErrorCode then .process
  else .reject

/-- Take the transition. -/
def settle (r : EmployeeRecord) (now : DateTime) (jobApplication : JobApplication) (codeTraitement : Json)
    (a : Stored) : Except TransitionError EmployeeRecord :=
  if codeTraitement.isText aspProcessingSuccessCode then process r now jobApplication a false
  else if codeTraitement.isText aspDuplicateErrorCode then process r now jobApplication a true
  else reject r now jobApplication a

/-- The log of the transition. -/
def settleLog (r : EmployeeRecord) (now : DateTime) (codeTraitement : Json) (a : Stored) : Upload.TransitionLog :=
  { setAspProcessingInformation .empty a with
    employeeRecord := r.pk
    transition := transitionFor codeTraitement
    fromState := .sent
    toState := (transitionFor codeTraitement).target
    timestamp := now }

/-! ## Lines -/

/-- What else is known of an employee record. -/
structure Details where
  createdAt : DateTime
  approvalNumber : String
  jobApplication : JobApplication

/-- The tables, with the details of each employee record. -/
structure Tables extends Upload.Database where
  details : Nat → Details
  approvals : Approvals.Db
  notifications : Notifications

section Lines

variable (remotePath : DateTime → String) (columns : Columns)

/-- The employee record is on this line of this file. A null line number looks for a null one. -/
def OnLine (file : String) (lineNumber : Option Int) (r : EmployeeRecord) : Prop :=
  r.aspBatchFile.map remotePath = some file ∧ r.aspBatchLineNumber.map Int.ofNat = lineNumber

instance (file : String) (lineNumber : Option Int) (r : EmployeeRecord) :
    Decidable (OnLine remotePath file lineNumber r) :=
  inferInstanceAs (Decidable (_ ∧ _))

/-- `find_by_batch(..).first()`: the last one created, and of two that were created at once, the one with the greatest
key. -/
def Tables.findByBatch (t : Tables) (file : String) (lineNumber : Option Int) : Option EmployeeRecord :=
  (orderByDesc (fun r => toLex ((t.details r.pk).createdAt, r.pk))
    (t.employeeRecords.rows.filter fun r => OnLine remotePath file lineNumber r)).head?

/-- `approval.suspension_set.exists() or approval.prolongation_set.exists()`, on the approval with this number. -/
def Tables.hasPeriods (t : Tables) (number : String) : Bool :=
  (t.approvals.approvals.entries.find? fun e => e.2.number = number).any fun e =>
    t.approvals.suspensions.rows.any (fun p => p.approvalId = e.1) ||
      t.approvals.prolongations.rows.any fun p => p.approvalId = e.1

/-- A duplicate is notified when its approval has periods. -/
def Tables.notifyDuplicate (t : Tables) (r : EmployeeRecord) (now : DateTime) (codeTraitement : Json) : Notifications :=
  if codeTraitement.isText aspDuplicateErrorCode && t.hasPeriods (t.details r.pk).approvalNumber then
    t.notifications.upsert r.pk now
  else t.notifications

/-- A line about a record that is `SENT`. -/
def Tables.settle (t : Tables) (now : DateTime) (raw : Json) (line : Line) (r : EmployeeRecord) :
    Except FeedbackError Tables := do
  let a : Stored :=
    ⟨columns.char line.codeTraitement, columns.char line.libelleTraitement, ← columns.json raw⟩
  let r' ← (Feedback.settle r now (t.details r.pk).jobApplication line.codeTraitement a).mapError .transition
  a.check
  let db ← (t.toDatabase.save r' (settleLog r now line.codeTraitement a)).mapError .transition
  return { t with toDatabase := db, notifications := t.notifyDuplicate r now line.codeTraitement }

/-- One line. It is skipped when it finds no record that is `SENT`. -/
def Tables.parseLine (t : Tables) (now : DateTime) (file : String) (raw : Json) : Except FeedbackError Tables := do
  let line ← readLine raw
  let lineNumber ← columns.integer line.numLigne
  match (t.findByBatch remotePath file lineNumber).filter fun r => r.status = .sent with
  | none => return t
  | some r => t.settle columns now raw line r

/-- The loop over the lines. -/
def Tables.parseLines (clock : Nat → DateTime) (file : String) : Nat → List Json → Tables → Except FeedbackError Tables
  | _, [], t => .ok t
  | idx, raw :: rest, t => do
      let t' ← t.parseLine remotePath columns (clock idx) file raw
      Tables.parseLines clock file (idx + 1) rest t'

/-- The lines of a document. -/
def linesOf (batch : Json) : Except FeedbackError (List Json) := do
  let lines ← getItem "lignesTelechargement" batch
  elementsOf lines

/-- `_parse_feedback_file`. -/
def Tables.parseFeedbackFile (t : Tables) (clock : Nat → DateTime) (feedbackFile : String) (batch : Json) :
    Except FeedbackError Tables := do
  let file ← batchFilenameFromFeedback feedbackFile
  let lines ← linesOf batch
  t.parseLines remotePath columns clock file 1 lines

/-! ## Files -/

/-- The tables, and the files in the download folder. -/
structure State where
  tables : Tables
  files : List String

/-- What the folder holds under a name, when the file is read and parsed at these times. -/
structure Download where
  filename : String
  document : Except FeedbackError Json
  clock : Nat → DateTime

/-- A file of the folder, with its document and the times of its lines. -/
def Download.ofFile (document : String → Except FeedbackError Json) (clock : String → Nat → DateTime)
    (filename : String) : Download :=
  ⟨filename, document filename, clock filename⟩

/-- One turn of the loop of `download_json_file`. The tables are those of before when anything is raised. -/
def State.downloadFile (s : State) (d : Download) : State :=
  if filenameStart.toList.isPrefixOf d.filename.toList then
    match d.document >>= s.tables.parseFeedbackFile remotePath columns d.clock d.filename with
    | .error _ => s
    | .ok tables => { tables, files := s.files.erase d.filename }
  else s

/-- Several turns. -/
def State.downloads (s : State) (l : List Download) : State := l.foldl (fun s d => s.downloadFile remotePath columns d) s

/-- `download_json_file`, on the files of the folder. -/
def State.downloadJsonFile (s : State) (document : String → Except FeedbackError Json)
    (clock : String → Nat → DateTime) : State :=
  s.downloads remotePath columns (s.files.map (Download.ofFile document clock))

end Lines

/-! ## Files that can be handled -/

/-- The line can be read, and what it says fits in the columns. -/
def Storable (columns : Columns) (raw : Json) : Prop :=
  ∃ line n archive, readLine raw = .ok line ∧ columns.integer line.numLigne = .ok n ∧ columns.json raw = .ok archive ∧
    Stored.check ⟨columns.char line.codeTraitement, columns.char line.libelleTraitement, archive⟩ = .ok ()

/-- The records are under their keys, no two of them are on one line of one file, and those that are `SENT` are valid. -/
structure Tables.Ready (t : Tables) : Prop where
  keyed : ∀ k r, t.employeeRecords.lookup k = some r → r.pk = k
  unique : ∀ j k r r', t.employeeRecords.lookup j = some r → t.employeeRecords.lookup k = some r' →
    r.toAspExchangeInformation.SameLine r'.toAspExchangeInformation → j = k
  clean : ∀ k r, t.employeeRecords.lookup k = some r → r.status = .sent →
    (t.details k).jobApplication.clean = .ok ()

/-! ## The site -/

/-- The transitions that are taken between the exchanges. -/
inductive Call where
  | ready
  | disable
  | enable
  | archive (approvalIsValid approvalCanBeProlonged : Bool)
  | unarchiveTo (transition : Transition)

namespace Call

def transition : Call → Transition
  | ready => .ready
  | disable => .disable
  | enable => .enable
  | archive _ _ => .archive
  | unarchiveTo transition => transition

def take (r : EmployeeRecord) (now : DateTime) (jobApplication : JobApplication) :
    Call → Except TransitionError EmployeeRecord
  | ready => r.ready now jobApplication
  | disable => r.disable now
  | enable => r.enable now jobApplication
  | archive approvalIsValid approvalCanBeProlonged =>
      r.archive now jobApplication approvalIsValid approvalCanBeProlonged
  | unarchiveTo transition =>
      if transition ∈ [.unarchiveProcessed, .unarchiveRejected, .unarchiveNew] then r.unarchiveTo now transition
      else .error .invalidTransition

end Call

namespace Tables

variable (t : Tables)

/-- Take a transition on a record. -/
def call (now : DateTime) (pk : Nat) (c : Call) : Option Tables := do
  let r ← t.employeeRecords.lookup pk
  let r' ← (c.take r now (t.details pk).jobApplication).toOption
  let log : Upload.TransitionLog := { AspExchangeInformation.empty with
    employeeRecord := pk
    transition := c.transition
    fromState := r.status
    toState := r'.status
    timestamp := now }
  let db ← (t.toDatabase.save r' log).toOption
  return { t with toDatabase := db }

/-- A new employee record. -/
def create (now : DateTime) (pk : Nat) : Option Tables :=
  if pk ∈ t.employeeRecords then none
  else some { t with employeeRecords := t.employeeRecords.insert pk { AspExchangeInformation.empty with
    pk, status := .new, processedAt := none, processedAsDuplicate := false, updatedAt := now } }

/-- Delete an employee record, with its logs. -/
def delete (pk : Nat) : Tables :=
  { t with
    employeeRecords := t.employeeRecords.erase pk
    logs := t.logs.filter fun l => l.employeeRecord ≠ pk }

/-- The records that `upload` sends. -/
def recordsToSend : List Upload.FetchedRecord :=
  ((orderBy (fun r => toLex (r.updatedAt, r.pk)) (t.employeeRecords.rows.filter fun r =>
    r.status = .ready ∧ (t.details r.pk).jobApplication.state = .accepted)).take maxEmployeeRecords).map fun r =>
      ⟨r, (t.details r.pk).jobApplication⟩

end Tables

inductive Action where
  | create (now : DateTime) (pk : Nat)
  | delete (pk : Nat)
  | call (now : DateTime) (pk : Nat) (c : Call)
  | upload (serializer : Upload.FetchedRecord → Except TransitionError String) (putfo : DateTime → List String → Bool)
      (clock : Nat → DateTime)
  | download (d : Download)
  | elsewhere (details : Nat → Details) (approvals : Approvals.Db) (notifications : Notifications) (files : List String)

/-- One step. The last action is any change of the other tables and of the folder. -/
def State.step (remotePath : DateTime → String) (columns : Columns) (s : State) : Action → Option State
  | .create now pk => (s.tables.create now pk).map fun tables => { s with tables }
  | .delete pk => some { s with tables := s.tables.delete pk }
  | .call now pk c => (s.tables.call now pk c).map fun tables => { s with tables }
  | .upload serializer putfo clock => some { s with
      tables := { s.tables with
        toDatabase :=
          (Upload.uploadBatchFile serializer putfo clock s.tables.recordsToSend s.tables.toDatabase).database } }
  | .download d => some (s.downloadFile remotePath columns d)
  | .elsewhere details approvals notifications files =>
      some ⟨{ s.tables with details, approvals, notifications }, files⟩

/-! ## What a file does -/

/-- The characters of a file name where the timestamp is. -/
def timestampOf (filename : String) : List Char := (filename.toList.drop 8).take 14

/-- The name of the feedback of a file that has a timestamp. -/
def feedbackPathFormat (timestamp : List Char) : String :=
  String.ofList (filenameStart.toList ++ timestamp ++ feedbackFileSuffix ++ fileExtension)

/-- Each record is stored under its key. -/
def Tables.Keyed (t : Tables) : Prop := ∀ k r, t.employeeRecords.lookup k = some r → r.pk = k

/-- The rows of `t'` are those of `t`, with their lines. -/
structure SameLines (t t' : Tables) : Prop where
  details : t'.details = t.details
  lookup : ∀ k, (t'.employeeRecords.lookup k).map (fun r => (r.aspBatchFile, r.aspBatchLineNumber)) =
    (t.employeeRecords.lookup k).map fun r => (r.aspBatchFile, r.aspBatchLineNumber)

/-- The line finds the record `k`. -/
def Tables.Finds (t : Tables) (remotePath : DateTime → String) (columns : Columns) (file : String) (raw : Json)
    (k : Nat) : Prop :=
  ∃ line n, readLine raw = .ok line ∧ columns.integer line.numLigne = .ok n ∧
    (t.findByBatch remotePath file n).map EmployeeRecord.pk = some k

/-- The status that a code gives. -/
def statusFor (codeTraitement : Json) : Status :=
  if codeTraitement.isText "0000" || codeTraitement.isText "3436" then .processed else .rejected

/-- The line `raw` makes `r'` of the record `r`. -/
def Answered (columns : Columns) (jobApplication : JobApplication) (now : DateTime) (raw : Json)
    (r r' : EmployeeRecord) : Prop :=
  ∃ line archive, readLine raw = .ok line ∧ columns.json raw = .ok archive ∧
    settle r now jobApplication line.codeTraitement
      ⟨columns.char line.codeTraitement, columns.char line.libelleTraitement, archive⟩ = .ok r' ∧
    r'.status = statusFor line.codeTraitement ∧ r'.aspProcessingCode = columns.char line.codeTraitement

/-- What the lines of a file do, each at its time, when none of them raises. -/
structure Effect (remotePath : DateTime → String) (columns : Columns) (clock : Nat → DateTime) (file : String) (idx : Nat)
    (lines : List Json) (t t' : Tables) : Prop where
  keyed : t'.Keyed
  same : SameLines t t'
  logs : ∀ l ∈ t.logs, l ∈ t'.logs
  kept : ∀ k, (∀ r ∈ t.employeeRecords.lookup k, r.status = .sent → ∀ raw ∈ lines,
    ¬ t.Finds remotePath columns file raw k) → t'.employeeRecords.lookup k = t.employeeRecords.lookup k
  answered : ∀ k, ∀ r ∈ t.employeeRecords.lookup k, r.status = .sent → ∀ before raw after,
    lines = before ++ raw :: after → (∀ x ∈ before, ¬ t.Finds remotePath columns file x k) →
    t.Finds remotePath columns file raw k → ∃ r' ∈ t'.employeeRecords.lookup k,
      Answered columns (t.details k).jobApplication (clock (idx + before.length)) raw r r'

/-- The file is handled: its lines have their effect, and it is removed. -/
def State.Handled (remotePath : DateTime → String) (columns : Columns) (s s' : State) (d : Download) : Prop :=
  ∃ document file lines, d.document = .ok document ∧ batchFilenameFromFeedback d.filename = .ok file ∧
    linesOf document = .ok lines ∧ Effect remotePath columns d.clock file 1 lines s.tables s'.tables ∧
    s'.files = s.files.erase d.filename

/-- What is promised of a file, from this state on: it is handled or it changes nothing, and what it settles no other
file changes. -/
structure State.Atomic (remotePath : DateTime → String) (columns : Columns) (s : State) (d : Download) : Prop where
  handled : s.downloadFile remotePath columns d = s ∨
    s.Handled remotePath columns (s.downloadFile remotePath columns d) d
  settled : ∀ k r, (s.downloadFile remotePath columns d).tables.employeeRecords.lookup k = some r → r.status ≠ .sent →
    ∀ l, ((s.downloadFile remotePath columns d).downloads remotePath columns l).tables.employeeRecords.lookup k = some r

/-- The log tells that the record `k` was sent at this line of this file. -/
def SentAt (k : Nat) (batchFile : DateTime) (lineNumber : Option Nat) (log : Upload.TransitionLog) : Prop :=
  log.employeeRecord = k ∧ log.transition = .waitForAspResponse ∧ log.aspBatchFile = some batchFile ∧
    log.aspBatchLineNumber = lineNumber

/-- A record that has a file was sent in it, on its line. -/
def Tables.Traced (t : Tables) : Prop :=
  ∀ k, ∀ r ∈ t.employeeRecords.lookup k, ∀ batchFile ∈ r.aspBatchFile,
    ∃ log ∈ t.logs, SentAt k batchFile r.aspBatchLineNumber log

/-- Each record that the file changes was sent at one of its lines, and nowhere since. -/
def State.ChangesSent (remotePath : DateTime → String) (columns : Columns) (s : State) (d : Download) : Prop :=
  ∀ k, (s.downloadFile remotePath columns d).tables.employeeRecords.lookup k ≠ s.tables.employeeRecords.lookup k →
    ∃ document file lines, d.document = .ok document ∧ batchFilenameFromFeedback d.filename = .ok file ∧
      linesOf document = .ok lines ∧ ∃ raw ∈ lines, ∃ line n, readLine raw = .ok line ∧
        columns.integer line.numLigne = .ok n ∧ ∃ r ∈ s.tables.employeeRecords.lookup k, r.status = .sent ∧
          OnLine remotePath file n r ∧ ∃ batchFile ∈ r.aspBatchFile, ∃ log ∈ s.tables.logs,
            SentAt k batchFile r.aspBatchLineNumber log

end Itou.EmployeeRecords.Feedback
