import Itou.Lib.Outcomes
import Itou.Lib.Runs
import Itou.SiaeEvaluations.Models

/-!
# Evaluation campaigns

The views by which the institution and the SIAEs act on a campaign, and the admin actions that move it on. Each
request is a transaction: when it fails, nothing is written.
-/

namespace Itou.SiaeEvaluations

open Itou.Lib

/-- How a request fails: a view refuses it, or the code raises. -/
inductive Failure where
  | http404
  | forbidden
  | valueError
  | assertionError
  | typeError
  | integrityError
  deriving DecidableEq

/-- The failures that are not answers of a view. -/
def Failure.Raised : Failure → Prop
  | .http404 | .forbidden => False
  | _ => True

instance : DecidablePred Failure.Raised
  | .http404 | .forbidden => .isFalse id
  | .valueError | .assertionError | .typeError | .integrityError => .isTrue trivial

/-! ## Creation -/

/-- A job application that is selected for the campaign: the criteria of its diagnosis, and those among them whose
certification covers the hiring. -/
structure Selected where
  diagnosisCriteria : List Nat
  certified : List Nat

section Populate

variable (setAt : DateTime)

def populateJobApplication (selected : Selected) : EvaluatedJobApplication where
  diagnosisCriteria := selected.diagnosisCriteria
  evaluatedAdministrativeCriteria := selected.certified.map fun key =>
    { administrativeCriteria := key
      proof := none
      uploadedAt := some setAt
      submittedAt := some setAt
      reviewState := .accepted
      criteriaCertified := true }

def populateSiae (jobApplications : List Selected) : EvaluatedSiae :=
  let siae : EvaluatedSiae :=
    { evaluatedJobApplications := jobApplications.map (populateJobApplication setAt)
      reviewedAt := none
      finalReviewedAt := none
      submissionFreezedAt := none
      notifiedAt := none
      finalState := none }
  if siae.state none = .accepted then { siae with reviewedAt := some setAt, finalReviewedAt := some setAt } else siae

/-- `EvaluationCampaign.populate`. -/
def populate (siaes : List (List Selected)) : EvaluationCampaign where
  endedAt := none
  evaluatedSiaes := siaes.map (populateSiae setAt)

end Populate

/-! ## Views -/

/-- The `action` of `institution_evaluated_administrative_criteria`: the URL accepts any slug. -/
inductive CriteriaAction where
  | reinit
  | accept
  | refuse
  | other
  deriving DecidableEq

/-- `save()`: the table checks its constraint. -/
def EvaluatedSiae.save (siae : EvaluatedSiae) : Except Failure EvaluatedSiae :=
  if siae.FinalReviewedAtOnlyAfterReviewedAt then .ok siae else .error .integrityError

/-- Update the element at this place, when there is one. -/
def updateAt {α : Type} (l : List α) (i : Nat) (f : α → Except Failure α) : Except Failure (List α) :=
  match l[i]? with
  | none => .error .http404
  | some a => (f a).map (l.set i)

namespace EvaluatedSiae

variable (siae : EvaluatedSiae) (endedAt : Option DateTime) (now : DateTime)

def updateJobApplication (j : Nat) (f : EvaluatedJobApplication → Except Failure EvaluatedJobApplication) :
    Except Failure EvaluatedSiae :=
  (updateAt siae.evaluatedJobApplications j f).map fun evaluatedJobApplications =>
    { siae with evaluatedJobApplications }

def updateCriteria (j k : Nat)
    (f : EvaluatedAdministrativeCriteria → Except Failure EvaluatedAdministrativeCriteria) :
    Except Failure EvaluatedSiae :=
  siae.updateJobApplication j fun a =>
    (updateAt a.evaluatedAdministrativeCriteria k f).map fun evaluatedAdministrativeCriteria =>
      { a with evaluatedAdministrativeCriteria }

/-- The new `review_state`. -/
def reviewState : CriteriaAction → EvaluatedAdministrativeCriteriaState
  | .reinit => .pending
  | .accept => .accepted
  | .refuse => if siae.reviewedAt.isSome then .refused2 else .refused
  | .other => .refused

def institutionEvaluatedAdministrativeCriteria (j k : Nat) (action : CriteriaAction) : Except Failure EvaluatedSiae :=
  siae.updateCriteria j k fun c =>
    if c.criteriaCertified then .error .http404 else .ok { c with reviewState := siae.reviewState action }

/-- `EvaluatedSiae.review`. -/
def review : Except Failure EvaluatedSiae :=
  match siae.state endedAt with
  | .accepted => { siae with reviewedAt := some now, finalReviewedAt := some now }.save
  | .refused => { siae with reviewedAt := some now }.save
  | .adversarialStage => { siae with finalReviewedAt := some now }.save
  | _ => .error .typeError

def institutionEvaluatedSiaeValidation : Except Failure EvaluatedSiae :=
  if siae.CanReview endedAt then siae.review endedAt now else .ok siae

/-- A criterion that was just selected. -/
def selectedCriteria (key : Nat) : EvaluatedAdministrativeCriteria where
  administrativeCriteria := key
  proof := none
  uploadedAt := none
  submittedAt := none
  reviewState := .pending
  criteriaCertified := false

/-- `EvaluatedJobApplication.save_selected_criteria`: the boxes that were unchecked are deleted, those that were
checked are created. -/
def saveSelectedCriteria (a : EvaluatedJobApplication) (cleanedKeys changedKeys : List Nat) :
    EvaluatedJobApplication :=
  let kept := a.evaluatedAdministrativeCriteria.filter fun c =>
    ¬ (c.administrativeCriteria ∈ changedKeys ∧ c.administrativeCriteria ∉ cleanedKeys)
  let created := a.diagnosisCriteria.dedup.filter fun key => key ∈ changedKeys ∧ key ∈ cleanedKeys
  { a with evaluatedAdministrativeCriteria := kept ++ created.map selectedCriteria }

/-- The fields of the form are the criteria of the diagnosis. A field has changed when its criterion is checked and
was not there, or the other way around. -/
def siaeSelectCriteria (isValid : List Nat → Bool) (j : Nat) (checked : List Nat) : Except Failure EvaluatedSiae :=
  siae.updateJobApplication j fun a =>
    if siae.shouldSelectCriteria a = .noteditable then .error .forbidden
    else
      let cleanedKeys := a.diagnosisCriteria.filter (· ∈ checked)
      let initial := a.evaluatedAdministrativeCriteria.map EvaluatedAdministrativeCriteria.administrativeCriteria
      if isValid cleanedKeys then
        .ok (saveSelectedCriteria a cleanedKeys
          (a.diagnosisCriteria.filter fun key => ¬ (key ∈ cleanedKeys ↔ key ∈ initial)))
      else .ok a

def siaeUploadDoc (j k : Nat) (file : Nat) : Except Failure EvaluatedSiae :=
  siae.updateCriteria j k fun c =>
    if siae.CanUpload c then
      .ok { c with proof := some file, uploadedAt := some now, reviewState := .pending, submittedAt := none }
    else .error .forbidden

/-- Submit the criteria whose review is pending. -/
def submitCriteria : EvaluatedSiae :=
  { siae with evaluatedJobApplications := siae.evaluatedJobApplications.map fun a =>
      { a with evaluatedAdministrativeCriteria := a.evaluatedAdministrativeCriteria.map fun c =>
          if c.reviewState = .pending then { c with submittedAt := some now } else c } }

def siaeSubmitProofs : Except Failure EvaluatedSiae :=
  if siae.CanSubmit endedAt then .ok { siae.submitCriteria now with submissionFreezedAt := some now } else .ok siae

/-- The last step of the notification of a refused SIAE. -/
def institutionEvaluatedSiaeNotify : Except Failure EvaluatedSiae :=
  if siae.EvaluationIsFinal endedAt ∧ siae.notifiedAt = none ∧ siae.state endedAt = .refused then
    .ok { siae with notifiedAt := some now }
  else .error .http404

/-! ## Campaign -/

def freeze : EvaluatedSiae :=
  if siae.submissionFreezedAt = none then { siae with submissionFreezedAt := some now } else siae

/-- The loop of `transition_to_adversarial_phase`. -/
def toAdversarialPhase : Except Failure EvaluatedSiae :=
  if siae.reviewedAt.isSome then
    match siae.state endedAt with
    | .accepted | .adversarialStage => .ok siae
    | _ => .error .valueError
  else
    match siae.state endedAt with
    | .pending | .submittable => .ok { siae with reviewedAt := some now }
    | .submitted => .ok { siae with reviewedAt := some now, finalReviewedAt := some now }
    | .accepted => .ok { siae with reviewedAt := some now, finalReviewedAt := some now }
    | .refused => .ok { siae with reviewedAt := some now }
    | .adversarialStage => .error .assertionError

/-- The loops of `close`, on a campaign that ended just now. -/
def close : EvaluatedSiae :=
  let closed := { siae with finalState := some (siae.state (some now)) }
  if siae.notifiedAt = none ∧ siae.finalReviewedAt = none ∧
      (siae.stateFromApplications = .accepted ∨ siae.stateFromApplications = .refused) then
    { closed with finalReviewedAt := some now }
  else closed

end EvaluatedSiae

namespace EvaluationCampaign

variable (c : EvaluationCampaign) (now : DateTime)

def freeze : EvaluationCampaign := { c with evaluatedSiaes := c.evaluatedSiaes.map (·.freeze now) }

def transitionToAdversarialPhase : Except Failure EvaluationCampaign := do
  let siaes ← c.evaluatedSiaes.mapM fun siae => siae.toAdversarialPhase c.endedAt now
  let saved ← siaes.mapM EvaluatedSiae.save
  return { c with evaluatedSiaes := saved.map fun siae => { siae with submissionFreezedAt := none } }

def close : Except Failure EvaluationCampaign :=
  if c.endedAt.isSome then .ok c
  else do
    let saved ← c.evaluatedSiaes.mapM fun siae => (siae.close now).save
    return { endedAt := some now, evaluatedSiaes := saved }

/-- A view of a campaign that has not ended. -/
def onSiae (i : Nat) (f : EvaluatedSiae → Except Failure EvaluatedSiae) : Except Failure EvaluationCampaign :=
  if c.endedAt.isSome then .error .http404
  else (updateAt c.evaluatedSiaes i f).map fun evaluatedSiaes => { c with evaluatedSiaes }

end EvaluationCampaign

/-! ## Runs -/

/-- A request. SIAEs, job applications and criteria are named by their places. -/
inductive Action where
  | institutionEvaluatedAdministrativeCriteria (i j k : Nat) (action : CriteriaAction)
  | institutionEvaluatedSiaeValidation (i : Nat)
  | institutionEvaluatedSiaeNotify (i : Nat)
  | siaeSelectCriteria (i j : Nat) (checked : List Nat)
  | siaeUploadDoc (i j k : Nat) (file : Nat)
  | siaeSubmitProofs (i : Nat)
  | freeze
  | transitionToAdversarialPhase
  | close
  deriving DecidableEq

namespace EvaluationCampaign

variable (isValid : List Nat → Bool) (c : EvaluationCampaign) (now : DateTime)

def exec : Action → Except Failure EvaluationCampaign
  | .institutionEvaluatedAdministrativeCriteria i j k action =>
      c.onSiae i (·.institutionEvaluatedAdministrativeCriteria j k action)
  | .institutionEvaluatedSiaeValidation i => c.onSiae i (·.institutionEvaluatedSiaeValidation c.endedAt now)
  | .institutionEvaluatedSiaeNotify i =>
      (updateAt c.evaluatedSiaes i (·.institutionEvaluatedSiaeNotify c.endedAt now)).map fun evaluatedSiaes =>
        { c with evaluatedSiaes }
  | .siaeSelectCriteria i j checked => c.onSiae i (·.siaeSelectCriteria isValid j checked)
  | .siaeUploadDoc i j k file => c.onSiae i (·.siaeUploadDoc now j k file)
  | .siaeSubmitProofs i => c.onSiae i (·.siaeSubmitProofs c.endedAt now)
  | .freeze => .ok (c.freeze now)
  | .transitionToAdversarialPhase => c.transitionToAdversarialPhase now
  | .close => c.close now

end EvaluationCampaign

/-- A campaign and the time of the last request. -/
structure State where
  campaign : EvaluationCampaign
  clock : DateTime
  deriving DecidableEq

/-- Requests come in the order of time. A request that fails leaves the campaign as it was. -/
def State.step (isValid : List Nat → Bool) (s : State) (label : DateTime × Action) : Option State :=
  if s.clock ≤ label.1 then
    match s.campaign.exec isValid label.1 label.2 with
    | .ok campaign => some ⟨campaign, label.1⟩
    | .error _ => some ⟨s.campaign, label.1⟩
  else none

/-- A campaign that was just populated. -/
def State.start (setAt : DateTime) (siaes : List (List Selected)) : State := ⟨populate setAt siaes, setAt⟩

/-! ## What a run is judged by -/

/-- The criterion at this place. -/
def EvaluatedSiae.criterion (siae : EvaluatedSiae) (j k : Nat) : Option EvaluatedAdministrativeCriteria :=
  siae.evaluatedJobApplications[j]?.bind fun a => a.evaluatedAdministrativeCriteria[k]?

/-- When it is reviewed, either it is accepted for good, or all its criteria have a review. -/
def EvaluatedSiae.ReviewStands (siae : EvaluatedSiae) (endedAt : Option DateTime) : Prop :=
  siae.reviewedAt.isSome →
    (siae.EvaluationIsFinal endedAt → siae.state endedAt = .accepted) ∧
    (¬ siae.EvaluationIsFinal endedAt → siae.stateFromApplications = .accepted ∨ siae.stateFromApplications = .refused)

/-- When all its criteria have a review, this review was validated. -/
def EvaluatedSiae.IsValidated (siae : EvaluatedSiae) : Prop :=
  siae.notifiedAt = none → siae.stateFromApplications = .accepted ∨ siae.stateFromApplications = .refused →
    siae.reviewedAt.isSome

instance (siae : EvaluatedSiae) (endedAt : Option DateTime) : Decidable (siae.ReviewStands endedAt) :=
  inferInstanceAs (Decidable (_ → _))

instance (siae : EvaluatedSiae) : Decidable siae.IsValidated := inferInstanceAs (Decidable (_ → _ → _))

/-- A proof that the institution has reviewed, or that was submitted before the review of the SIAE. -/
def EvaluatedSiae.AlreadyReviewed (siae : EvaluatedSiae) (c : EvaluatedAdministrativeCriteria) : Prop :=
  c.reviewState ≠ .pending ∨ ∃ submittedAt ∈ c.submittedAt, ∃ reviewedAt ∈ siae.reviewedAt, submittedAt < reviewedAt

instance (siae : EvaluatedSiae) (c : EvaluatedAdministrativeCriteria) : Decidable (siae.AlreadyReviewed c) :=
  inferInstanceAs (Decidable (_ ∨ ∃ _ ∈ c.submittedAt, ∃ _ ∈ siae.reviewedAt, _))

/-- A submission submits all the proofs, and those that are already reviewed keep their dates. -/
structure EvaluatedSiae.Submits (siae siae' : EvaluatedSiae) : Prop where
  submitted : ∀ c ∈ siae'.criteria, c.criteriaCertified = false → c.proof ≠ none → c.submittedAt ≠ none
  state : siae'.state none ≠ .submittable
  length : siae'.criteria.length = siae.criteria.length
  kept : ∀ pair ∈ siae.criteria.zip siae'.criteria,
    siae.AlreadyReviewed pair.1 → pair.2.submittedAt = pair.1.submittedAt

instance (siae siae' : EvaluatedSiae) : Decidable (siae.Submits siae') :=
  decidable_of_iff
    ((∀ c ∈ siae'.criteria, c.criteriaCertified = false → c.proof ≠ none → c.submittedAt ≠ none) ∧
      siae'.state none ≠ .submittable ∧ siae'.criteria.length = siae.criteria.length ∧
      ∀ pair ∈ siae.criteria.zip siae'.criteria,
        siae.AlreadyReviewed pair.1 → pair.2.submittedAt = pair.1.submittedAt)
    ⟨fun ⟨h₁, h₂, h₃, h₄⟩ => ⟨h₁, h₂, h₃, h₄⟩, fun h => ⟨h.submitted, h.state, h.length, h.kept⟩⟩

/-- A proof that is not submitted has no review, and a proof that was submitted before the review of the SIAE has one. -/
def EvaluatedSiae.ReviewsSubmitted (siae : EvaluatedSiae) : Prop :=
  ∀ c ∈ siae.criteria,
    (c.criteriaCertified = false → c.proof ≠ none → c.submittedAt = none → c.reviewState = .pending) ∧
      (c.reviewState = .pending →
        ∀ submittedAt ∈ c.submittedAt, ∀ reviewedAt ∈ siae.reviewedAt, ¬ submittedAt < reviewedAt)

instance (siae : EvaluatedSiae) : Decidable siae.ReviewsSubmitted :=
  inferInstanceAs (Decidable (∀ c ∈ siae.criteria, _ ∧ (_ → ∀ _ ∈ c.submittedAt, ∀ _ ∈ siae.reviewedAt, _)))

namespace State

variable (isValid : List Nat → Bool) (s : State) (label : DateTime × Action)

/-- Once the review of an SIAE is final, the institution does not act on its criteria any more, and the SIAE, if it is
accepted, does not replace a proof that it has submitted. -/
def LeavesFinal : Prop :=
  s.campaign.endedAt = none → match label.2 with
    | .institutionEvaluatedAdministrativeCriteria i _ _ _ =>
        ∀ siae ∈ s.campaign.evaluatedSiaes[i]?, siae.finalReviewedAt = none
    | .siaeUploadDoc i j k _ =>
        ∀ siae ∈ s.campaign.evaluatedSiaes[i]?, siae.finalReviewedAt.isSome → siae.state none = .accepted →
          ∀ c ∈ siae.criterion j k, c.submittedAt = none
    | _ => True

/-- The request is not refused by a view: the code raises. -/
def Raises : Prop := ∃ failure ∈ failure? (s.campaign.exec isValid label.1 label.2), failure.Raised

/-- The reviews are in a state from which the campaign can be moved on. -/
def CanMoveOn : Prop :=
  match label.2 with
  | .transitionToAdversarialPhase => ∀ siae ∈ s.campaign.evaluatedSiaes, siae.ReviewStands s.campaign.endedAt
  | .close => s.campaign.endedAt = none → ∀ siae ∈ s.campaign.evaluatedSiaes, siae.IsValidated
  | _ => True

/-- A submission that the SIAE can make is a success and submits all the proofs. -/
def SubmitsAll : Prop :=
  match label.2 with
  | .siaeSubmitProofs i =>
      s.campaign.endedAt = none → ∀ siae ∈ s.campaign.evaluatedSiaes[i]?, siae.CanSubmit none →
        ∃ siae' ∈ (s.campaign.exec isValid label.1 label.2).toOption.bind (·.evaluatedSiaes[i]?), siae.Submits siae'
  | _ => True

/-- The SIAE submits while the reviews are those of the proofs that it has submitted. -/
def SubmitsUnreviewed : Prop :=
  match label.2 with
  | .siaeSubmitProofs i =>
      s.campaign.endedAt = none → ∀ siae ∈ s.campaign.evaluatedSiaes[i]?, siae.CanSubmit none → siae.ReviewsSubmitted
  | _ => True

instance : Decidable (s.SubmitsAll isValid label) :=
  match label with
  | (now, .siaeSubmitProofs i) =>
      inferInstanceAs (Decidable (_ → ∀ siae ∈ s.campaign.evaluatedSiaes[i]?, _ →
        ∃ siae' ∈ (s.campaign.exec isValid now (.siaeSubmitProofs i)).toOption.bind (·.evaluatedSiaes[i]?), _))
  | (_, .institutionEvaluatedAdministrativeCriteria ..) | (_, .institutionEvaluatedSiaeValidation _)
  | (_, .institutionEvaluatedSiaeNotify _) | (_, .siaeSelectCriteria ..) | (_, .siaeUploadDoc ..)
  | (_, .freeze) | (_, .transitionToAdversarialPhase) | (_, .close) => .isTrue trivial

instance : Decidable (s.Raises isValid label) := inferInstanceAs (Decidable (∃ _ ∈ failure? _, _))

instance : Decidable (s.LeavesFinal label) :=
  match label with
  | (_, .institutionEvaluatedAdministrativeCriteria ..) => inferInstanceAs (Decidable (_ → ∀ _ ∈ _, _))
  | (_, .siaeUploadDoc ..) => inferInstanceAs (Decidable (_ → ∀ _ ∈ _, _ → _ → ∀ _ ∈ _, _))
  | (_, .institutionEvaluatedSiaeValidation _) | (_, .institutionEvaluatedSiaeNotify _)
  | (_, .siaeSelectCriteria ..) | (_, .siaeSubmitProofs _) | (_, .freeze) | (_, .transitionToAdversarialPhase)
  | (_, .close) => .isTrue fun _ => trivial

instance : Decidable (s.CanMoveOn label) :=
  match label with
  | (_, .transitionToAdversarialPhase) => inferInstanceAs (Decidable (∀ _ ∈ s.campaign.evaluatedSiaes, _))
  | (_, .close) => inferInstanceAs (Decidable (_ → ∀ _ ∈ s.campaign.evaluatedSiaes, _))
  | (_, .institutionEvaluatedAdministrativeCriteria ..) | (_, .institutionEvaluatedSiaeValidation _)
  | (_, .institutionEvaluatedSiaeNotify _) | (_, .siaeSelectCriteria ..) | (_, .siaeUploadDoc ..)
  | (_, .siaeSubmitProofs _) | (_, .freeze) => .isTrue trivial

end State

end Itou.SiaeEvaluations
