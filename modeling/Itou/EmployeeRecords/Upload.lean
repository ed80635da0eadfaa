import Itou.EmployeeRecords.Models
import Itou.Lib.Tables

/-!
# The upload of employee records

`_upload_batch_file` of `transfer_employee_records`: the file leaves first, and then the records are marked one by
one, each in a transaction of its own. The command is not atomic.
-/

namespace Itou.EmployeeRecords

open Itou.Lib

/-- `EmployeeRecordBatch.MAX_EMPLOYEE_RECORDS`. -/
def maxEmployeeRecords : Nat := 700

namespace Upload

/-- A row of `employee_record_employeerecordtransitionlog`. -/
structure TransitionLog extends AspExchangeInformation where
  employeeRecord : Nat
  transition : Transition
  fromState : Status
  toState : Status
  timestamp : DateTime
  deriving DecidableEq

/-- The employee records and the log of their transitions. -/
structure Database where
  employeeRecords : Table EmployeeRecord
  logs : List TransitionLog

/-- An employee record as the command has read it, with the rows that `full_fetch` selects along. -/
structure FetchedRecord where
  record : EmployeeRecord
  jobApplication : JobApplication
  deriving DecidableEq

/-- What is left of a call: the tables, the file that is now on the server, and the exception that was raised. -/
structure Outcome where
  database : Database
  uploaded : Option (DateTime × List String)
  raised : Option TransitionError

/-! ## Marking the records -/

/-- Save a record after a transition, and log the transition. Both tables have a unique constraint on the file and
the line. -/
def Database.save (db : Database) (r : EmployeeRecord) (log : TransitionLog) : Except TransitionError Database :=
  if ∃ e ∈ db.employeeRecords.entries, e.1 ≠ r.pk ∧
      e.2.toAspExchangeInformation.SameLine r.toAspExchangeInformation then
    .error (.integrity "unique_employeerecord_asp_batch_file_and_line")
  else if ∃ l ∈ db.logs, l.toAspExchangeInformation.SameLine log.toAspExchangeInformation then
    .error (.integrity "unique_employeerecordtransitionlog_asp_batch_file_and_line")
  else .ok { employeeRecords := db.employeeRecords.insert r.pk r, logs := log :: db.logs }

/-- The log of `wait_for_asp_response`. -/
def waitForAspResponseLog (r : EmployeeRecord) (now file : DateTime) (lineNumber : Nat) (archive : String) :
    TransitionLog :=
  { AspExchangeInformation.empty.setAspBatchInformation file lineNumber archive with
    employeeRecord := r.pk
    transition := .waitForAspResponse
    fromState := .ready
    toState := .sent
    timestamp := now }

/-- `wait_for_asp_response` on one record, with its save. -/
def Database.waitForAspResponse (db : Database) (r : FetchedRecord) (now file : DateTime) (lineNumber : Nat)
    (archive : String) : Except TransitionError Database := do
  let r' ← r.record.waitForAspResponse now r.jobApplication file lineNumber archive
  db.save r' (waitForAspResponseLog r.record now file lineNumber archive)

/-- The loop over the records. An exception ends it, and leaves what was saved before. -/
def markSent (clock : Nat → DateTime) (file : DateTime) :
    Nat → List (FetchedRecord × String) → Database → Database × Option TransitionError
  | _, [], db => (db, none)
  | lineNumber, (r, archive) :: rest, db =>
      match db.waitForAspResponse r (clock lineNumber) file lineNumber archive with
      | .error e => (db, some e)
      | .ok db' => markSent clock file (lineNumber + 1) rest db'

/-! ## The upload -/

/-- The batch, its elements numbered from 1. -/
def batch (records : List FetchedRecord) : List FetchedRecord :=
  records.mapIdx fun i r =>
    { r with record := { r.record with
        toAspExchangeInformation := r.record.toAspExchangeInformation.number (i + 1) } }

/-- `_upload_batch_file`, without `dry_run`. `clock 0` is the time of the upload, and `clock i` that of the save
of line `i`. Neither the serializer nor the transfer of a file with its lines changes the tables. -/
def uploadBatchFile (serializer : FetchedRecord → Except TransitionError String)
    (putfo : DateTime → List String → Bool) (clock : Nat → DateTime) (records : List FetchedRecord)
    (db : Database) : Outcome :=
  if records.length > maxEmployeeRecords then
    ⟨db, none, some (.validation "An upload batch can have no more than 700 elements")⟩
  else
    match (batch records).mapM serializer with
    | .error e => ⟨db, none, some e⟩
    | .ok lines =>
        if putfo (getRemotePath (clock 0)) lines then
          let (db', raised) := markSent clock (getRemotePath (clock 0)) 1 ((batch records).zip lines) db
          ⟨db', some (getRemotePath (clock 0), lines), raised⟩
        else ⟨db, none, none⟩

/-! ## Marked records -/

/-- The columns name this line of this file. -/
def OnLine (file : DateTime) (lineNumber : Nat) (info : AspExchangeInformation) : Prop :=
  info.aspBatchFile = some file ∧ info.aspBatchLineNumber = some lineNumber

instance (file : DateTime) (lineNumber : Nat) (info : AspExchangeInformation) :
    Decidable (OnLine file lineNumber info) :=
  inferInstanceAs (Decidable (_ ∧ _))

/-- No employee record but those of `pks` is on the line, and no log is. -/
def Database.LineFree (db : Database) (file : DateTime) (lineNumber : Nat) (pks : List Nat) : Prop :=
  (∀ e ∈ db.employeeRecords.entries, OnLine file lineNumber e.2.toAspExchangeInformation → e.1 ∈ pks) ∧
    ∀ l ∈ db.logs, ¬ OnLine file lineNumber l.toAspExchangeInformation

instance (db : Database) (file : DateTime) (lineNumber : Nat) (pks : List Nat) :
    Decidable (db.LineFree file lineNumber pks) :=
  inferInstanceAs (Decidable (_ ∧ _))

/-- The employee record is `SENT`, on this line of this file. -/
def Database.Marked (db : Database) (file : DateTime) (lineNumber pk : Nat) : Prop :=
  ∃ row ∈ db.employeeRecords.lookup pk, row.status = .sent ∧ OnLine file lineNumber row.toAspExchangeInformation

end Upload

end Itou.EmployeeRecords
