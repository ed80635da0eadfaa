import Itou.EmployeeRecords.Notifications
import Itou.EmployeeRecords.Upload
import Itou.Lib.Runs

/-!
# The upload run of update notifications

`transfer_employee_records_updates --upload` next to transactions that change the dates of approvals. The command
is not atomic: it reads the `NEW` notifications with their approvals, uploads one file, and then marks the
notifications one by one, each in a transaction of its own. Under read-committed isolation a transaction takes
effect when it commits, so that a run is an interleaving of these steps.
-/

namespace Itou.EmployeeRecords

open Itou.Lib

/-- The dates of an approval, which a line of the file carries. -/
structure Dates where
  startAt : Int
  endAt : Int
  deriving DecidableEq

/-- The statuses that the trigger `create_employee_record_notification` looks for. -/
def watchedStatuses : List Status := [.processed, .sent, .disabled]

namespace Updates

/-- What the trigger reads of an employee record. -/
structure TrackedRecord where
  approval : Nat
  status : Status
  deriving DecidableEq

/-- A notification as the command has read it, with the dates of its approval. -/
structure Fetched where
  notification : Notification
  dates : Option Dates
  deriving DecidableEq

/-- Where the run is: before its query, before the upload of its batch, marking what is left to mark of the file
from a line on (with the serialized lines), or finished. -/
inductive Phase where
  | idle
  | fetched (batch : List Fetched)
  | uploaded (file : DateTime) (lineNumber : Nat) (todo : List (Fetched × String))
  | done
  deriving DecidableEq

/-- The tables, the last dates uploaded for each employee record, and the run. -/
structure State where
  approvals : Table Dates
  employeeRecords : Table TrackedRecord
  notifications : Notifications
  lastUploaded : Table Dates
  phase : Phase

/-- The dates of the approval of an employee record. -/
def State.datesOf (s : State) (employeeRecord : Nat) : Option Dates :=
  (s.employeeRecords.lookup employeeRecord).bind fun r => s.approvals.lookup r.approval

/-! ## The command -/

/-- The query of `upload`, and the only chunk of it that a run sends. -/
def chunk (t : Notifications) : List Notification :=
  (orderBy Notification.updatedAt (orderBy Notification.pk (t.rows.filter fun n => n.status = .new))).take
    maxEmployeeRecords

/-- The batch of a run, its elements numbered from 1. -/
def State.batch (s : State) : List Fetched :=
  (chunk s.notifications).mapIdx fun i n =>
    { notification := { n with toAspExchangeInformation := n.toAspExchangeInformation.number (i + 1) }
      dates := s.datesOf n.employeeRecord }

/-- Fetch the `NEW` notifications. -/
def State.fetch (s : State) : Option State :=
  match s.phase with
  | .idle => some { s with phase := if s.batch = [] then .done else .fetched s.batch }
  | _ => none

/-- The lines of the file. A line needs the dates, and the serializer can fail on what else it reads. -/
def serialize (serializer : Notification → Dates → Option String) (batch : List Fetched) :
    Option (List (Fetched × String)) :=
  batch.mapM fun f => f.dates.bind fun dates => (serializer f.notification dates).map (Prod.mk f)

/-- The dates of the batch are the last ones uploaded. -/
def recordUploads (batch : List Fetched) (lastUploaded : Table Dates) : Table Dates :=
  batch.foldl (fun t f => match f.dates with
    | some dates => t.insert f.notification.employeeRecord dates
    | none => t) lastUploaded

/-- Serialize and upload the batch. When either fails the run stops without marking anything. -/
def State.upload (serializer : Notification → Dates → Option String) (now : DateTime) (transferred : Bool)
    (s : State) : Option State :=
  match s.phase with
  | .fetched batch =>
      match serialize serializer batch with
      | none => some { s with phase := .done }
      | some lines =>
          if transferred then
            some { s with
              lastUploaded := recordUploads batch s.lastUploaded
              phase := .uploaded (getRemotePath now) 1 lines }
          else some { s with phase := .done }
  | _ => none

/-- The run after a notification has been marked. -/
def Phase.next (file : DateTime) (lineNumber : Nat) (todo : List (Fetched × String)) : Phase :=
  if todo = [] then .done else .uploaded file (lineNumber + 1) todo

/-- `wait_for_asp_response` on the next notification, which is the object that was fetched. An exception ends the
run. -/
def State.mark (now : DateTime) (s : State) : Option State :=
  match s.phase with
  | .uploaded file lineNumber ((f, archive) :: todo) =>
      match f.notification.waitForAspResponse now file lineNumber archive >>= s.notifications.save with
      | .error _ => some { s with phase := .done }
      | .ok notifications => some { s with notifications, phase := Phase.next file lineNumber todo }
  | _ => none

/-! ## The trigger -/

/-- The employee records that the trigger loops over. -/
def State.watched (s : State) (approval : Nat) : List Nat :=
  (s.employeeRecords.entries.filter fun e => e.2.approval = approval && e.2.status ∈ watchedStatuses).map
    Sigma.fst

/-- `create_employee_record_notification`. -/
def createEmployeeRecordNotification (now : DateTime) (watched : List Nat) (t : Notifications) : Notifications :=
  watched.foldl (fun t r => t.upsert r now) t

/-- A transaction that sets the dates of an approval. The trigger fires when they differ. -/
def State.edit (now : DateTime) (approval : Nat) (dates : Dates) (s : State) : Option State :=
  match s.approvals.lookup approval with
  | none => none
  | some old => some { s with
      approvals := s.approvals.insert approval dates
      notifications :=
        if old ≠ dates then createEmployeeRecordNotification now (s.watched approval) s.notifications
        else s.notifications }

/-! ## Steps -/

/-- A step of the run, or a transaction beside it. -/
inductive Label where
  | fetch
  | upload (now : DateTime) (transferred : Bool)
  | mark (now : DateTime)
  | edit (now : DateTime) (approval : Nat) (dates : Dates)
  deriving DecidableEq

def State.step (serializer : Notification → Dates → Option String) (s : State) : Label → Option State
  | .fetch => s.fetch
  | .upload now transferred => s.upload serializer now transferred
  | .mark now => s.mark now
  | .edit now approval dates => s.edit now approval dates

/-! ## Stale marks -/

/-- No date change is lost: the dates last uploaded are the dates of the approval, or a notification is to be
sent. -/
def State.Law (s : State) (r : Nat) : Prop :=
  s.notifications.HasNew r ∨ ∀ dates ∈ s.lastUploaded.lookup r, s.datesOf r = some dates

/-- The trigger looks for the employee record. -/
def State.Watched (s : State) (r : Nat) : Prop :=
  ∃ tracked ∈ s.employeeRecords.lookup r, tracked.status ∈ watchedStatuses

/-- What a mark works on: the next notification, and the columns that it will get. -/
def State.nextMark (s : State) : Option (Fetched × AspExchangeInformation) :=
  match s.phase with
  | .uploaded file lineNumber ((f, archive) :: _) =>
      some (f, f.notification.toAspExchangeInformation.setAspBatchInformation file lineNumber archive)
  | _ => none

/-- A mark of a notification of the employee record, fetched with dates that have changed since. Its line of the
file is free, so that the mark is saved. -/
def MarksStale (r : Nat) (s : State) : Label → Prop
  | .mark _ => ∃ next ∈ s.nextMark, next.1.notification.employeeRecord = r ∧ next.1.dates ≠ s.datesOf r ∧
      ¬ s.notifications.LineTaken next.1.notification.pk next.2
  | _ => False

/-- An edit that changes the dates of the approval of the employee record. -/
def ChangesDates (r : Nat) (s : State) : Label → Prop
  | .edit _ approval dates =>
      (∃ tracked ∈ s.employeeRecords.lookup r, tracked.approval = approval) ∧
        s.approvals.lookup approval ≠ some dates
  | _ => False

instance (r : Nat) (s : State) : (label : Label) → Decidable (MarksStale r s label)
  | .fetch | .upload _ _ | .edit _ _ _ => .isFalse id
  | .mark _ => inferInstanceAs (Decidable (∃ next ∈ s.nextMark, _))

instance (r : Nat) (s : State) : (label : Label) → Decidable (ChangesDates r s label)
  | .fetch | .upload _ _ | .mark _ => .isFalse id
  | .edit _ _ _ => inferInstanceAs (Decidable (_ ∧ _))

end Updates

end Itou.EmployeeRecords
