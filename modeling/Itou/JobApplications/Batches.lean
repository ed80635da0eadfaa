import Itou.JobApplications.Accept
import Itou.Lib.RowLocks

/-!
# Batches of job applications

The views of `batch_views` lock the applications that they have been asked to change, among those that the current
company has received, and then change them one by one. Two commands change applications as well:
`archive_job_applications`, by one `UPDATE`, and `reject_job_applications_after_delay`, which locks the applications of
one job seeker at a time. Each request and each of these transactions is a session.
-/

namespace Itou.JobApplications

open Itou.Lib

/-- The batch views, with the user and the values of the form that each one uses. -/
inductive Batch where
  | archive (user : Nat)
  | unarchive
  | postpone (answer : String)
  | addToPool (answer : String)
  | process
  | refuse (reason : Option RefusalReason) (sharedWithJobSeeker : Bool) (answer answerToPrescriber : String)
  | transfer (request : JobApplication.TransferRequest)

/-- The transactions. The commands compute the instant of their query first. -/
inductive Session where
  | batch (company : Nat) (applicationIds : List Nat) (view : Batch)
  | archiveJobApplications (now : DateTime)
  | rejectJobApplications (jobSeeker : Nat) (now : DateTime) (answer : String)

/-- `AUTO_REJECT_JOB_APPLICATION_STATES`. -/
def autoRejectStates : List JobApplicationState := [.new, .processing]

/-- `AUTO_REJECT_JOB_APPLICATION_DELAY`, in days. -/
def autoRejectDelay : Int := 60

namespace JobApplication

def canBeArchived (r : JobApplication) : Bool := r.archivedAt.isNone && r.state ∈ archivableStatesManual

/-- `automatically_rejectable_applications`. -/
def automaticallyRejectable (now : DateTime) (r : JobApplication) : Bool :=
  r.state ∈ autoRejectStates && r.archivedAt.isNone &&
    r.updatedAt ≤ { now with date := now.date - autoRejectDelay }

end JobApplication

namespace Batch

/-- Make a call. Among the errors of the workflow, those that the view catches leave the application as it is. -/
def call (caught : TransitionError → Bool) (now : DateTime) (c : Call) (r : JobApplication) :
    Sessions.Outcome JobApplication (DateTime × Action) :=
  match r.attempt now c with
  | .ok r => .done (now, .call c) r
  | .error e => if caught e then .skipped else .failed

/-- `except xwf_models.InvalidTransitionError`. -/
def isInvalidTransition : TransitionError → Bool
  | .invalidTransition => true
  | _ => false

/-- `except (ValidationError, xwf_models.InvalidTransitionError)`. -/
def isTransferError : TransitionError → Bool
  | .invalidTransition => true
  | .validationError _ => true
  | _ => false

/-- What a view does with one application. -/
def work (now : DateTime) (r : JobApplication) : Batch → Sessions.Outcome JobApplication (DateTime × Action)
  | .archive user =>
      if r.canBeArchived then
        .done (now, .archive user) { r with archivedAt := some now, archivedBy := some user }
      else .skipped
  | .unarchive =>
      if r.archivedAt.isSome then .done (now, .unarchive) { r with archivedAt := none, archivedBy := none }
      else .skipped
  | .postpone answer => if r.state = .postponed then .skipped else call isInvalidTransition now (.postpone answer) r
  | .addToPool answer => if r.state = .pool then .skipped else call isInvalidTransition now (.addToPool answer) r
  | .process => if r.state = .processing then .skipped else call isInvalidTransition now .process r
  | .refuse reason shared answer answerToPrescriber =>
      call isInvalidTransition now (.refuse reason shared answer answerToPrescriber) r
  | .transfer request => call isTransferError now (.transfer request) r

end Batch

namespace Session

/-- The condition of the query, which is evaluated on a row once it is locked. -/
def selects : Session → Nat → JobApplication → Bool
  | .batch company applicationIds _, pk, r => r.toCompany.pk = company && pk ∈ applicationIds
  | .archiveJobApplications now, _, r =>
      r.archivedAt.isNone && r.state ∈ JobApplication.archivableStates &&
        r.updatedAt ≤ { now with date := now.date - 180 }
  | .rejectJobApplications jobSeeker now _, _, r =>
      r.jobSeeker.pk = jobSeeker && r.automaticallyRejectable now

/-- What a transaction does with one application that it has locked. -/
def work : Session → DateTime → JobApplication → Sessions.Outcome JobApplication (DateTime × Action)
  | .batch _ _ view, now, r => view.work now r
  | .archiveJobApplications now, _, r => .done (now, .archiveAutomatically) { r with archivedAt := some now }
  | .rejectJobApplications _ _ answer, now, r =>
      Batch.call (fun _ => false) now (.refuse (some .auto) true answer r.answerToPrescriber) r

/-- The transactions `ι`, with the job applications under their primary keys. -/
def system {ι : Type} (sessions : ι → Session) : Sessions Nat JobApplication ι DateTime (DateTime × Action) where
  selects i := (sessions i).selects
  work i := (sessions i).work

end Session

end Itou.JobApplications
