import Itou.Lib.Dates
import Mathlib.Data.List.MinMax

/-!
# Evaluation of SIAEs

An institution evaluates the self-approvals of SIAEs: for each evaluated job application the SIAE selects
administrative criteria, uploads a proof for each and submits them, and the institution reviews them. The state of an
SIAE is computed from its criteria each time it is read.
-/

namespace Itou.SiaeEvaluations

open Itou.Lib

universe u

/-! ## States -/

/-- `EvaluatedAdministrativeCriteriaState`. -/
inductive EvaluatedAdministrativeCriteriaState where
  | pending
  | accepted
  | refused
  | refused2
  deriving DecidableEq

inductive EvaluatedJobApplicationsState where
  | pending
  | processing
  | uploaded
  | submitted
  | accepted
  | refused
  | refused2
  deriving DecidableEq

inductive EvaluatedSiaeState where
  | pending
  | submittable
  | submitted
  | accepted
  | refused
  | adversarialStage
  deriving DecidableEq

inductive EvaluatedJobApplicationsSelectCriteriaState where
  | pending
  | editable
  | noteditable
  deriving DecidableEq

/-- `EvaluatedJobApplication.STATES_PRIORITY`, the lowest priority first. -/
def EvaluatedJobApplicationsState.statesPriority : List EvaluatedJobApplicationsState :=
  [.accepted, .refused, .refused2, .submitted, .uploaded, .processing, .pending]

/-- The `STATES_PRIORITY` of `EvaluatedSiae.state_from_applications`. -/
def EvaluatedSiaeState.statesPriority : List EvaluatedSiaeState :=
  [.accepted, .refused, .submitted, .submittable, .pending]

/-- `max(states, key=STATES_PRIORITY.index, default=default)`. -/
def maxPriority {α : Type u} [DecidableEq α] (priority : List α) (default : α) (states : List α) : α :=
  (states.argmax priority.idxOf).getD default

/-! ## Rows -/

/-- A criterion that the SIAE has to prove. `administrativeCriteria` is its key. -/
structure EvaluatedAdministrativeCriteria where
  administrativeCriteria : Nat
  proof : Option Nat
  uploadedAt : Option DateTime
  submittedAt : Option DateTime
  reviewState : EvaluatedAdministrativeCriteriaState
  criteriaCertified : Bool
  deriving DecidableEq

/-- `diagnosisCriteria` are the criteria selected in the eligibility diagnosis of the job application. -/
structure EvaluatedJobApplication where
  diagnosisCriteria : List Nat
  evaluatedAdministrativeCriteria : List EvaluatedAdministrativeCriteria
  deriving DecidableEq

structure EvaluatedSiae where
  evaluatedJobApplications : List EvaluatedJobApplication
  reviewedAt : Option DateTime
  finalReviewedAt : Option DateTime
  submissionFreezedAt : Option DateTime
  notifiedAt : Option DateTime
  finalState : Option EvaluatedSiaeState
  deriving DecidableEq

structure EvaluationCampaign where
  endedAt : Option DateTime
  evaluatedSiaes : List EvaluatedSiae
  deriving DecidableEq

/-! ## States that are computed -/

/-- The `state_from` of `compute_state`. -/
def EvaluatedAdministrativeCriteria.state (c : EvaluatedAdministrativeCriteria) : EvaluatedJobApplicationsState :=
  if c.criteriaCertified then .accepted
  else if c.proof = none then .processing
  else if c.submittedAt = none then .uploaded
  else match c.reviewState with
    | .pending => .submitted
    | .accepted => .accepted
    | .refused => .refused
    | .refused2 => .refused2

def EvaluatedJobApplication.computeState (a : EvaluatedJobApplication) : EvaluatedJobApplicationsState :=
  maxPriority EvaluatedJobApplicationsState.statesPriority .pending
    (a.evaluatedAdministrativeCriteria.map EvaluatedAdministrativeCriteria.state)

/-- The `state_from` of `state_from_applications`. -/
def EvaluatedJobApplicationsState.siaeState : EvaluatedJobApplicationsState → EvaluatedSiaeState
  | .pending | .processing => .pending
  | .uploaded => .submittable
  | .submitted => .submitted
  | .refused | .refused2 => .refused
  | .accepted => .accepted

namespace EvaluatedSiae

variable (siae : EvaluatedSiae) (endedAt : Option DateTime)

/-- The constraint `final_reviewed_at_only_after_reviewed_at`. -/
def FinalReviewedAtOnlyAfterReviewedAt : Prop :=
  ∀ final ∈ siae.finalReviewedAt, ∃ reviewed ∈ siae.reviewedAt, reviewed ≤ final

instance : Decidable siae.FinalReviewedAtOnlyAfterReviewedAt :=
  inferInstanceAs (Decidable (∀ _ ∈ siae.finalReviewedAt, ∃ _ ∈ siae.reviewedAt, _))

/-- `evaluation_is_final`, given the `ended_at` of the campaign. -/
def EvaluationIsFinal : Prop := siae.finalReviewedAt.isSome ∨ endedAt.isSome

instance : Decidable (siae.EvaluationIsFinal endedAt) := inferInstanceAs (Decidable (_ ∨ _))

def stateFromApplications : EvaluatedSiaeState :=
  maxPriority EvaluatedSiaeState.statesPriority .pending
    (siae.evaluatedJobApplications.map fun a => a.computeState.siaeState)

def state : EvaluatedSiaeState :=
  match siae.finalState with
  | some finalState => finalState
  | none => match siae.stateFromApplications with
    | .pending | .submittable =>
        -- The SIAE did not submit its proofs.
        if siae.EvaluationIsFinal endedAt then .refused else siae.stateFromApplications
    | .submitted =>
        -- The institution did not review the proofs.
        if siae.EvaluationIsFinal endedAt then .accepted else .submitted
    | _ =>
        if siae.reviewedAt.isSome ∧ ¬ siae.EvaluationIsFinal endedAt then .adversarialStage
        else siae.stateFromApplications

/-- All the criteria of all the job applications. -/
def criteria : List EvaluatedAdministrativeCriteria :=
  siae.evaluatedJobApplications.flatMap EvaluatedJobApplication.evaluatedAdministrativeCriteria

def CanReview : Prop :=
  match siae.reviewedAt with
  | none => siae.state endedAt = .accepted ∨ siae.state endedAt = .refused
  | some reviewedAt => siae.finalReviewedAt = none ∧ siae.state endedAt = .adversarialStage ∧
      ∀ c ∈ siae.criteria, c.reviewState = .refused → ∀ submittedAt ∈ c.submittedAt, ¬ submittedAt < reviewedAt

instance : Decidable (siae.CanReview endedAt) :=
  match h : siae.reviewedAt with
  | none => decidable_of_iff (siae.state endedAt = .accepted ∨ siae.state endedAt = .refused) (by rw [CanReview, h])
  | some reviewedAt => decidable_of_iff (siae.finalReviewedAt = none ∧ siae.state endedAt = .adversarialStage ∧
      ∀ c ∈ siae.criteria, c.reviewState = .refused → ∀ submittedAt ∈ c.submittedAt, ¬ submittedAt < reviewedAt)
      (by rw [CanReview, h])

def CanSubmit : Prop := siae.submissionFreezedAt = none ∧ siae.state endedAt = .submittable

instance : Decidable (siae.CanSubmit endedAt) := inferInstanceAs (Decidable (_ ∧ _))

/-- `EvaluatedJobApplication.should_select_criteria`. -/
def shouldSelectCriteria (a : EvaluatedJobApplication) : EvaluatedJobApplicationsSelectCriteriaState :=
  if siae.submissionFreezedAt = none then
    if a.computeState = .pending then .pending
    else if siae.reviewedAt = none ∧ (a.computeState = .processing ∨ a.computeState = .uploaded) then .editable
    else .noteditable
  else .noteditable

/-- `EvaluatedAdministrativeCriteria.can_upload`. -/
def CanUpload (c : EvaluatedAdministrativeCriteria) : Prop :=
  siae.submissionFreezedAt = none ∧
    (c.submittedAt = none ∨ c.reviewState = .refused ∧ siae.reviewedAt.isSome)

instance (c : EvaluatedAdministrativeCriteria) : Decidable (siae.CanUpload c) := inferInstanceAs (Decidable (_ ∧ _))

end EvaluatedSiae

end Itou.SiaeEvaluations
