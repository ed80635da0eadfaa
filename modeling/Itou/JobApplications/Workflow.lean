import Itou.JobApplications.Models

/-!
# The workflow of job applications

`JobApplicationWorkflow` with the hooks that run before its transitions. A transition checks the state, runs
its hooks and its body, changes the state and saves the row.
-/

namespace Itou.JobApplications

open Itou.Lib

universe u

/-! ## Transitions -/

/-- The transitions, under their names in `JobApplicationWorkflow`. -/
inductive Transition where
  | process
  | postpone
  | accept
  | addToPool
  | moveToPriorToHire
  | cancelPriorToHire
  | refuse
  | cancel
  | renderObsolete
  | transfer
  | externalTransfer
  | reset
  deriving DecidableEq

namespace Workflow

def canBeAcceptedStates : List JobApplicationState :=
  [.new, .pool, .processing, .postponed, .priorToHire, .obsolete, .refused, .cancelled]

def canBeAddedToPoolStates : List JobApplicationState := [.new, .processing, .postponed, .cancelled, .obsolete]

def canBeTransferredStates : List JobApplicationState := canBeAcceptedStates

def canBeRefusedStates : List JobApplicationState := [.new, .pool, .processing, .priorToHire, .postponed]

def canAddPriorActionStates : List JobApplicationState :=
  [.new, .pool, .processing, .postponed, .obsolete, .refused, .cancelled]

def canBeProcessedStates : List JobApplicationState := [.new, .pool]

def canBePostponedStates : List JobApplicationState := [.new, .pool, .processing, .priorToHire]

end Workflow

namespace Transition

open Workflow

/-- The states that the transition can be taken from. -/
def sources : Transition → List JobApplicationState
  | process => canBeProcessedStates
  | postpone => canBePostponedStates
  | accept => canBeAcceptedStates
  | addToPool => canBeAddedToPoolStates
  | moveToPriorToHire => canAddPriorActionStates
  | cancelPriorToHire => [.priorToHire]
  | refuse => canBeRefusedStates
  | cancel => [.accepted]
  | renderObsolete => [.new, .processing, .postponed]
  | transfer => canBeTransferredStates
  | reset => [.obsolete]
  | externalTransfer => [.refused]

/-- The state that the transition leads to. -/
def target : Transition → JobApplicationState
  | process => .processing
  | postpone => .postponed
  | accept => .accepted
  | addToPool => .pool
  | moveToPriorToHire => .priorToHire
  | cancelPriorToHire => .processing
  | refuse => .refused
  | cancel => .cancelled
  | renderObsolete => .obsolete
  | transfer => .new
  | reset => .new
  | externalTransfer => .refused

/-! ## Hooks -/

/-- The transitions that `set_processed_at` is called before. -/
def setProcessedAt : List Transition := [accept, refuse, cancel, renderObsolete]

/-- The transitions that `unset_processed_at` is called before. -/
def unsetProcessedAt : List Transition :=
  [addToPool, process, postpone, moveToPriorToHire, cancelPriorToHire, transfer, reset]

/-- The transitions that `unarchive` is called before. -/
def unarchive : List Transition :=
  [process, postpone, accept, addToPool, moveToPriorToHire, cancelPriorToHire, refuse, cancel, renderObsolete,
   transfer, reset]

end Transition

namespace JobApplication

def setProcessedAt (now : DateTime) (r : JobApplication) : JobApplication := { r with processedAt := some now }

def unsetProcessedAt (r : JobApplication) : JobApplication := { r with processedAt := none }

def unarchive (r : JobApplication) : JobApplication := { r with archivedAt := none, archivedBy := none }

/-- The hooks that are declared with `before_transition`. -/
def beforeTransition (now : DateTime) (t : Transition) (r : JobApplication) : JobApplication :=
  let r := if t ∈ Transition.setProcessedAt then r.setProcessedAt now else r
  let r := if t ∈ Transition.unsetProcessedAt then r.unsetProcessedAt else r
  if t ∈ Transition.unarchive then r.unarchive else r

end JobApplication

/-! ## Taking a transition -/

/-- What ends a transition without saving the row. -/
inductive TransitionError where
  /-- The state is not a source of the transition. -/
  | invalidTransition
  /-- The body raises `AbortTransition`. -/
  | abortTransition (message : String)
  /-- The body raises `ValidationError`, or the form before it is not valid. -/
  | validationError (message : String)
  /-- A statement of the body on another table is refused. -/
  | refusedStatement
  /-- The row violates a constraint of its table. -/
  | integrityError (constraint : String)
  deriving DecidableEq

/-- `updated_at` is set on each save. -/
def JobApplication.touch (now : DateTime) (r : JobApplication) : JobApplication := { r with updatedAt := now }

/-- `JobApplication.save`. -/
def JobApplication.save (now : DateTime) (r : JobApplication) : Except TransitionError JobApplication :=
  match (r.touch now).violation with
  | some constraint => .error (.integrityError constraint)
  | none => .ok (r.touch now)

/-- Take a transition whose body is `body`. What the body has done elsewhere is given with the saved row. -/
def perform {α : Type u} (now : DateTime) (t : Transition)
    (body : JobApplication → Except TransitionError (JobApplication × α)) (r : JobApplication) :
    Except TransitionError (JobApplication × α) :=
  if r.state ∈ t.sources then
    match body (r.beforeTransition now t) with
    | .error e => .error e
    | .ok (r, a) =>
        match JobApplication.save now { r with state := t.target } with
        | .error e => .error e
        | .ok r => .ok (r, a)
  else .error .invalidTransition

/-! ## Bodies -/

namespace JobApplication

/-- `_reset_accepted_state`. -/
def resetAcceptedState (r : JobApplication) : JobApplication := { r with toAcceptedOnlyFields := {} }

/-- Who wants a transfer, where to, and the companies that they are a member of. -/
structure TransferRequest where
  user : User
  targetCompany : Company
  memberships : List Nat
  deriving DecidableEq

/-- `can_be_transferred`. -/
def canBeTransferred (r : JobApplication) (request : TransferRequest) : Bool :=
  request.targetCompany.pk ≠ r.toCompany.pk && request.user.isProfessional &&
    (r.toCompany.pk ∈ request.memberships && request.targetCompany.pk ∈ request.memberships) &&
    r.state ∈ Transition.transfer.sources

/-- The body of `transfer`. -/
def transferBody (now : DateTime) (request : TransferRequest) (r : JobApplication) :
    Except TransitionError (JobApplication × Unit) :=
  if !r.canBeTransferred request then
    .error (.validationError "Cette candidature n'est pas transférable")
  else
    let r := { r with
      transferredFrom := some r.toCompany.pk
      transferredBy := some request.user.pk
      transferredAt := some now
      toCompany := request.targetCompany
      state := .new
      answer := ""
      answerToPrescriber := "" }
    .ok (r.resetAcceptedState, ())

/-- The body of `cancel`. An application of the AI stock, or one with an employee record that was sent, is not
cancelled. -/
def cancelBody (employeeRecordSent : Bool) (r : JobApplication) :
    Except TransitionError (JobApplication × Unit) :=
  if r.origin = .aiStock || employeeRecordSent then
    .error (.abortTransition "Cette candidature n'a pu être annulée.")
  else .ok (r.resetAcceptedState, ())

/-- The transitions whose body only sends notifications. -/
def notifyBody (r : JobApplication) : Except TransitionError (JobApplication × Unit) := .ok (r, ())

/-! ## Archiving -/

/-- `ARCHIVABLE_JOB_APPLICATION_STATES`. -/
def archivableStates : List JobApplicationState :=
  [.new, .processing, .postponed, .refused, .cancelled, .obsolete]

/-- `ARCHIVABLE_JOB_APPLICATION_STATES_MANUAL`. -/
def archivableStatesManual : List JobApplicationState := [.refused, .cancelled, .obsolete]

/-- `archive_view` with the action `archive`: one `UPDATE` that does not touch `updated_at`. -/
def archive (now : DateTime) (user : Nat) (r : JobApplication) : Option JobApplication :=
  if r.state ∈ archivableStatesManual && r.state ≠ .accepted then
    some { r with archivedAt := some now, archivedBy := some user }
  else none

/-- `archive_view` with the action `unarchive`. -/
def unarchiveManually (r : JobApplication) : Option JobApplication :=
  if r.state ≠ .accepted then some { r with archivedAt := none, archivedBy := none } else none

/-- The command `archive_job_applications`, on an application that is old enough. -/
def archiveAutomatically (now : DateTime) (r : JobApplication) : Option JobApplication :=
  if r.archivedAt.isNone && r.state ∈ archivableStates then some { r with archivedAt := some now } else none

end JobApplication

end Itou.JobApplications
