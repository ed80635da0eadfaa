import Itou.Approvals.Models
import Itou.EmployeeRecords.Updates

/-!
# The exchange with the ASP

One employee record with its approval and its update notifications, the files on the way to the ASP and back, and
the dates that the ASP holds. The ASP reads the files in the order of their upload. A file is modelled by its line
about this employee record, and an upload that fails, which changes nothing, is no step.
-/

namespace Itou.EmployeeRecords.Exchange

open Itou.Lib
open Itou.Approvals (Approval)

/-! ## State -/

/-- `MovementType`. -/
inductive MovementType where
  | creation
  | update
  deriving DecidableEq

/-- A line of an uploaded file. -/
structure Line where
  movement : MovementType
  file : DateTime
  dates : Dates
  deriving DecidableEq

/-- A line of a feedback file. -/
structure Answer where
  movement : MovementType
  file : DateTime
  processingCode : String
  processingLabel : String
  archive : String
  deriving DecidableEq

/-- `clock` is the time of the last step, and `lastUpload` the last file that was uploaded. -/
structure State where
  clock : DateTime
  lastUpload : DateTime
  db : Approvals.Db
  jobApplication : JobApplication
  record : EmployeeRecord
  notifications : Notifications
  inbox : List Line
  outbox : List Answer
  asp : Option Dates

/-- A new employee record. -/
def State.start (clock : DateTime) (db : Approvals.Db) (jobApplication : JobApplication) (pk : Nat) : State where
  clock
  lastUpload := clock
  db
  jobApplication
  record := { AspExchangeInformation.empty with
    pk, status := .new, processedAt := none, processedAsDuplicate := false, updatedAt := clock }
  notifications := .empty
  inbox := []
  outbox := []
  asp := none

namespace State

variable (now : DateTime) (s : State)

/-! ## The approval -/

/-- The approval of the job application. -/
def approval : Option Approval := s.jobApplication.approval.bind s.db.approvals.lookup

def dates : Option Dates := s.approval.map fun a => ⟨a.startAt, a.endAt⟩

/-- Write the tables of the approvals. The trigger `create_employee_record_notification` looks at the dates. -/
def withDb (db : Approvals.Db) : State :=
  if State.dates { s with db } ≠ s.dates ∧ s.record.status ∈ watchedStatuses then
    { s with db, notifications := s.notifications.upsert s.record.pk now }
  else { s with db }

/-- `Approval.save`. -/
def saveApproval (change : Approval → Approval) : Option State :=
  match s.jobApplication.approval with
  | none => none
  | some id => (s.db.approvals.lookup id).map fun a =>
      s.withDb now { s.db with approvals := s.db.approvals.insert id { change a with updatedAt := now } }

/-- `update_start_date`, where `default_end_date` gives the end. -/
def updateStartDate (defaultEndDate : Int → Int) (newStartDate : Int) : Option State :=
  if s.approval.any (fun a => now.date < a.startAt) ∧ newStartDate < defaultEndDate newStartDate then
    s.saveApproval now fun a => { a with startAt := newStartDate, endAt := defaultEndDate newStartDate }
  else none

/-- `approval.suspension_set.exists() or approval.prolongation_set.exists()`, when the approval exists. -/
def hasPeriods : Bool :=
  s.approval.isSome &&
    (s.db.suspensions.rows.any (fun p => some p.approvalId = s.jobApplication.approval) ||
      s.db.prolongations.rows.any fun p => some p.approvalId = s.jobApplication.approval)

/-! ## The record -/

/-- `missed_notifications`, on the employee record. -/
def missedNotification : Bool :=
  s.approval.any fun a =>
    s.record.updatedAt < a.updatedAt && s.notifications.rows.all fun n => n.createdAt < a.updatedAt

/-- `ready`. An address that is not filled is formatted first. -/
def ready (address : HexaAddress) : Option State :=
  let jobSeeker := s.jobApplication.jobSeeker
  let jobApplication :=
    if jobSeeker.profile.hexaAddress.filled then s.jobApplication
    else { s.jobApplication with
      jobSeeker := { jobSeeker with profile := { jobSeeker.profile with hexaAddress := address } } }
  (s.record.ready now jobApplication).toOption.map fun record => { s with record, jobApplication }

def archive (approvalCanBeProlonged : Bool) : Option State :=
  (s.record.archive now s.jobApplication (s.approval.any fun a => now.date ≤ a.endAt)
    approvalCanBeProlonged).toOption.map fun record => { s with record }

/-- The transitions that `unarchive` tries. -/
def unarchiveTransitions : List Transition := [.unarchiveProcessed, .unarchiveRejected, .unarchiveNew]

/-- `unarchive`. -/
def unarchive : Option State :=
  match unarchiveTransitions.findSome? fun t => (s.record.unarchiveTo now t).toOption with
  | some record => some { s with
      record
      notifications :=
        if s.missedNotification then s.notifications.upsert s.record.pk now else s.notifications }
  | none => if s.record.status = .archived then some s else none

/-! ## Uploads -/

/-- Put a line of a file on the server. -/
def send (movement : MovementType) (dates : Dates) : State :=
  { s with lastUpload := getRemotePath now, inbox := s.inbox ++ [⟨movement, getRemotePath now, dates⟩] }

/-- The upload run of employee records: the line is sent, and then the record is marked, unless this raises. -/
def uploadRecord (archive : String) : Option State :=
  if s.record.status = .ready ∧ s.jobApplication.state = .accepted ∧ s.lastUpload < getRemotePath now then
    s.dates.map fun dates =>
      let record := { s.record with
        toAspExchangeInformation := s.record.toAspExchangeInformation.number 1 }
      match record.waitForAspResponse now s.jobApplication (getRemotePath now) 1 archive with
      | .ok record => { s.send now .creation dates with record }
      | .error _ => s.send now .creation dates
  else none

/-- The upload run of notifications. -/
def uploadNotification (archive : String) : Option State :=
  if s.lastUpload < getRemotePath now then
    match s.notifications.rows.find? fun n => n.IsNewFor s.record.pk, s.dates with
    | some n, some dates =>
        let n := { n with toAspExchangeInformation := n.toAspExchangeInformation.number 1 }
        match n.waitForAspResponse now (getRemotePath now) 1 archive >>= s.notifications.save with
        | .ok notifications => some { s.send now .update dates with notifications }
        | .error _ => some (s.send now .update dates)
    | _, _ => none
  else none

/-! ## The ASP -/

/-- The codes that the ASP can answer with: a creation is a duplicate exactly when it holds dates already. -/
def CanAnswer (line : Line) (processingCode : String) : Prop :=
  line.movement = .creation → (processingCode = aspDuplicateErrorCode ↔ s.asp.isSome)

instance (line : Line) (processingCode : String) : Decidable (s.CanAnswer line processingCode) :=
  inferInstanceAs (Decidable (_ → _))

/-- The ASP answers to the next line, and stores its dates when the answer is a success. -/
def answer (processingCode processingLabel archive : String) : Option State :=
  match s.inbox with
  | [] => none
  | line :: inbox =>
      if s.CanAnswer line processingCode then some { s with
        inbox
        outbox := s.outbox ++ [⟨line.movement, line.file, processingCode, processingLabel, archive⟩]
        asp := if processingCode = aspProcessingSuccessCode then some line.dates else s.asp }
      else none

/-! ## Feedback -/

/-- The row is the one of this file: `find_by_batch`. -/
def OfFile (file : DateTime) (info : AspExchangeInformation) : Prop :=
  info.aspBatchFile = some file ∧ info.aspBatchLineNumber = some 1

instance (file : DateTime) (info : AspExchangeInformation) : Decidable (OfFile file info) :=
  inferInstanceAs (Decidable (_ ∧ _))

/-- The feedback run of employee records, on one file. When a transition raises, the file stays. -/
def feedbackRecord (a : Answer) : Option State :=
  if a ∈ s.outbox ∧ a.movement = .creation then
    let s' := { s with outbox := s.outbox.erase a }
    if ¬ OfFile a.file s.record.toAspExchangeInformation ∨ s.record.status ≠ .sent then some s'
    else if a.processingCode = aspProcessingSuccessCode then
      (s.record.process now s.jobApplication a.processingCode a.processingLabel a.archive false).toOption.map
        fun record => { s' with record }
    else if a.processingCode = aspDuplicateErrorCode then
      (s.record.process now s.jobApplication a.processingCode a.processingLabel a.archive true).toOption.map
        fun record => { s' with
          record
          notifications := if s.hasPeriods then s.notifications.upsert s.record.pk now else s.notifications }
    else
      (s.record.reject now s.jobApplication a.processingCode a.processingLabel a.archive).toOption.map
        fun record => { s' with record }
  else none

/-- The feedback run of notifications, on one file. -/
def feedbackNotification (a : Answer) : Option State :=
  if a ∈ s.outbox ∧ a.movement = .update then
    let s' := { s with outbox := s.outbox.erase a }
    match s.notifications.rows.find? fun n => OfFile a.file n.toAspExchangeInformation with
    | none => some s'
    | some n =>
        if n.status ≠ .sent then some s'
        else
          let handled :=
            if a.processingCode = aspProcessingSuccessCode then
              n.process now a.processingCode a.processingLabel a.archive
            else n.reject now a.processingCode a.processingLabel a.archive
          (handled >>= s.notifications.save).toOption.map fun notifications => { s' with notifications }
  else none

end State

/-! ## Steps -/

inductive Action where
  | period (statement : Approvals.Statement)
  | updateStartDate (newStartDate : Int)
  | saveApproval
  | changeJobApplication (jobApplication : JobApplication)
  | saveRecord
  | ready (address : HexaAddress)
  | disable
  | enable
  | archive (approvalCanBeProlonged : Bool)
  | unarchive
  | uploadRecord (archive : String)
  | uploadNotification (archive : String)
  | answer (processingCode processingLabel archive : String)
  | feedbackRecord (a : Answer)
  | feedbackNotification (a : Answer)
  deriving DecidableEq

/-- Take an action. The job application and the record can be saved with other contents, but the approval of the
job application stays. -/
def State.act (defaultEndDate : Int → Int) (now : DateTime) (s : State) : Action → Option State
  | .period statement => (s.db.exec now statement).map (s.withDb now)
  | .updateStartDate newStartDate => s.updateStartDate now defaultEndDate newStartDate
  | .saveApproval => s.saveApproval now id
  | .changeJobApplication jobApplication =>
      if jobApplication.approval = s.jobApplication.approval then some { s with jobApplication } else none
  | .saveRecord => some { s with record := { s.record with updatedAt := now } }
  | .ready address => s.ready now address
  | .disable => (s.record.disable now).toOption.map fun record => { s with record }
  | .enable => (s.record.enable now s.jobApplication).toOption.map fun record => { s with record }
  | .archive approvalCanBeProlonged => s.archive now approvalCanBeProlonged
  | .unarchive => s.unarchive now
  | .uploadRecord archive => s.uploadRecord now archive
  | .uploadNotification archive => s.uploadNotification now archive
  | .answer processingCode processingLabel archive => s.answer processingCode processingLabel archive
  | .feedbackRecord a => s.feedbackRecord now a
  | .feedbackNotification a => s.feedbackNotification now a

/-- One step, at a time after the last one. -/
def State.step (defaultEndDate : Int → Int) (s : State) (label : DateTime × Action) : Option State :=
  if s.clock < label.1 then State.act defaultEndDate label.1 { s with clock := label.1 } label.2 else none

/-! ## What the ASP will hold -/

/-- What the ASP holds after a line that it accepts. -/
def store (held : Option Dates) (line : Line) : Option Dates :=
  match line.movement with
  | .creation => some (held.getD line.dates)
  | .update => some line.dates

namespace State

variable (s : State)

/-- What the ASP will hold when it has accepted all that is on its way. -/
def held : Option Dates := s.inbox.foldl store s.asp

/-- A notification is to be sent, or one has failed or will. -/
def Pending : Prop :=
  s.notifications.HasNew s.record.pk ∨ (∃ n ∈ s.notifications.rows, n.status = .rejected) ∨
    ∃ a ∈ s.outbox, a.movement = .update ∧ a.processingCode ≠ aspProcessingSuccessCode

/-- The dates are those of the approval, or a notification is pending. -/
def Covers (held : Option Dates) : Prop := s.Pending ∨ held = s.dates

/-- The ASP has the dates of the approval or is about to have them, or a notification is pending. -/
def UpToDate : Prop := s.Covers s.held

instance : Decidable s.Pending := inferInstanceAs (Decidable (_ ∨ _ ∨ _))

instance (held : Option Dates) : Decidable (s.Covers held) := inferInstanceAs (Decidable (_ ∨ _))

instance : Decidable s.UpToDate := inferInstanceAs (Decidable (s.Covers s.held))

end State

/-! ## The guarded steps -/

/-- The condition on a step. A record that becomes `PROCESSED` although the ASP has not just accepted it, be it as a
duplicate or out of the archive, gets a notification, or the ASP is up to date. -/
def State.Guard (s : State) : Action → Prop
  | .feedbackRecord a => OfFile a.file s.record.toAspExchangeInformation → s.record.status = .sent →
      a.processingCode = aspDuplicateErrorCode → s.hasPeriods = true ∨ s.UpToDate
  | .unarchive => s.record.status = .archived →
      s.record.statusBasedOnAspProcessingCode = some .processed → s.missedNotification = true ∨ s.UpToDate
  | _ => True

instance (s : State) : (action : Action) → Decidable (s.Guard action)
  | .feedbackRecord _ => inferInstanceAs (Decidable (_ → _ → _ → _))
  | .unarchive => inferInstanceAs (Decidable (_ → _ → _))
  | .period _ | .updateStartDate _ | .saveApproval | .changeJobApplication _ | .saveRecord | .ready _ | .disable
  | .enable | .archive _ | .uploadRecord _ | .uploadNotification _ | .answer _ _ _
  | .feedbackNotification _ => .isTrue trivial

end Itou.EmployeeRecords.Exchange
