import Itou.GeiqAssessments.Views

/-!
# Changes of an assessment

The ways in which a request changes an assessment, the invariant that they keep, and the constraints of the tables.
-/

namespace Itou.GeiqAssessments

open Itou.Lib

/-! ## Contracts -/

/-- The submission preselects the contracts that were not refused. -/
def EmployeeContract.preselect (c : EmployeeContract) : EmployeeContract :=
  if c.allowanceRefusalReason = none then { c with allowanceGranted := c.allowanceRequested } else c

/-- A fix of the GEIQ unselects all the contracts. -/
def EmployeeContract.unselect (c : EmployeeContract) : EmployeeContract := { c with allowanceGranted := false }

namespace EmployeeContract

variable {c c' : EmployeeContract}

theorem preselect_geiqFields : c.preselect.geiqFields = c.geiqFields := by
  unfold preselect
  split <;> rfl

theorem preselect_refusal : c.preselect.allowanceRefusalReason = c.allowanceRefusalReason ∧
    c.preselect.allowanceRefusalDetails = c.allowanceRefusalDetails := by
  unfold preselect
  split <;> exact ⟨rfl, rfl⟩

theorem Constraints.preselect (h : c.Constraints) : c.preselect.Constraints := by
  unfold EmployeeContract.preselect
  split
  · refine ⟨?_, h.allowanceRequestJustificationSet, h.allowanceRefusalSet⟩
    rintro ⟨hrequested, hgranted⟩
    exact absurd (hrequested.symm.trans hgranted) nofun
  · exact h

theorem Constraints.unselect (h : c.Constraints) : c.unselect.Constraints where
  allowanceRequestedOrNotGranted := fun h => nomatch h.2
  allowanceRequestJustificationSet := h.allowanceRequestJustificationSet
  allowanceRefusalSet := h.allowanceRefusalSet

theorem constraints_contractDataToDjango (info : ContractInfo) : (contractDataToDjango info).Constraints where
  allowanceRequestedOrNotGranted := fun h => nomatch h.2
  allowanceRequestJustificationSet := Or.inl ⟨rfl, rfl⟩
  allowanceRefusalSet := Or.inl ⟨rfl, rfl⟩

theorem Constraints.requested_of_granted (h : c.Constraints) (hgranted : c.allowanceGranted) :
    c.allowanceRequested := by
  cases hrequested : c.allowanceRequested with
  | true => rfl
  | false => exact absurd ⟨hrequested, hgranted⟩ h.allowanceRequestedOrNotGranted

end EmployeeContract

/-! ## Changes -/

/-- What a request that succeeds does to the assessment, and the guards that it went through. The index is the fix
that the request asks for. -/
inductive Change (a : Assessment) (now : DateTime) : Option InstitutionAction → Assessment → Prop where
  | same (fix : Option InstitutionAction) : Change a now fix a
  | submit (user : Nat) (log : AssessmentTransitionLog) (hlog : log.AskForFixTransitionWithComment)
      (hsubmitted : a.submittedAt = none) (hmissing : a.missingActionsToSubmit = []) :
      Change a now none { a with
        state := .submitted
        submittedAt := some now
        submittedBy := some user
        contracts := a.contracts.map EmployeeContract.preselect
        logs := a.logs ++ [log] }
  | syncSummary (file : Option Nat) (hfile : a.summaryDocumentFile = none) :
      Change a now none { a with summaryDocumentFile := file }
  | syncStructure (file : Option Nat) (hfile : a.structureFinancialAssessmentFile = none) :
      Change a now none { a with structureFinancialAssessmentFile := file }
  | uploadAction (file : Nat) (hsubmitted : a.submittedAt = none) :
      Change a now none { a with actionFinancialAssessmentFile := some file }
  | comment (text : String) (hsubmitted : a.submittedAt = none) :
      Change a now none { a with geiqComment := text }
  | contractsSync (infos : List ContractInfo) (hsynced : a.contractsSyncedAt = none) :
      Change a now none { a with
        contracts := infos.map contractDataToDjango
        contractsSyncedAt := some now }
  | validateSelection (hsubmitted : a.submittedAt = none) (hsynced : a.contractsSyncedAt.isSome)
      (hawaiting : a.contractsAwaitingJustificationNbForGeiq = 0) :
      Change a now none { a with contractsSelectionValidatedAt := some now }
  | invalidateSelection (hsubmitted : a.submittedAt = none) :
      Change a now none { a with contractsSelectionValidatedAt := none }
  | validateGrants (hsubmitted : a.submittedAt ≠ none) (hreviewed : a.reviewedAt = none)
      (hgrants : a.grantsSelectionValidatedAt = none)
      (hawaiting : a.contractsAwaitingJustificationNbForInstitution = 0) :
      Change a now none { a with grantsSelectionValidatedAt := some now }
  | invalidateGrants (hreviewed : a.reviewedAt = none) :
      Change a now none { a with grantsSelectionValidatedAt := none, decisionValidatedAt := none }
  | contractOfGeiq (pk : Nat) (c c' : EmployeeContract) (hselection : a.contractsSelectionValidatedAt = none)
      (hc : a.contracts[pk]? = some c) (hfields : c'.institutionFields = c.institutionFields)
      (hconstraints : c'.Constraints) :
      Change a now none { a with contracts := a.contracts.set pk c' }
  | contractOfInstitution (pk : Nat) (c c' : EmployeeContract) (hsubmitted : a.submittedAt ≠ none)
      (hgrants : a.grantsSelectionValidatedAt = none) (hc : a.contracts[pk]? = some c)
      (hfields : c'.geiqFields = c.geiqFields) (hconstraints : c'.Constraints)
      (hgranted : c'.allowanceGranted → c'.allowanceRefusalReason = none) :
      Change a now none { a with contracts := a.contracts.set pk c' }
  | decision (form : ReviewForm) (hgrants : a.grantsSelectionValidatedAt ≠ none) (hreviewed : a.reviewedAt = none)
      (herrors : form.errors = []) :
      Change a now none { a with
        reviewComment := form.reviewComment
        conventionAmount := form.conventionAmount.getD 0
        grantedAmount := form.grantedAmount.getD 0
        advanceAmount := form.advanceAmount.getD 0
        geiqResponsiblePerson := form.geiqResponsiblePerson
        institutionResponsiblePerson := form.institutionResponsiblePerson
        legalCommitmentNumber := form.legalCommitmentNumber
        decisionValidatedAt := some now }
  | review (user institution : Nat) (log : AssessmentTransitionLog) (hlog : log.AskForFixTransitionWithComment)
      (hreviewed : a.reviewedAt = none) (hmissing : a.missingActionsToReview = []) :
      Change a now none { a with
        state := .reviewed
        reviewedAt := some now
        reviewedBy := some user
        reviewedByInstitution := some institution
        logs := a.logs ++ [log] }
  | finalReview (user institution : Nat) (log : AssessmentTransitionLog) (hlog : log.AskForFixTransitionWithComment)
      (hreviewed : a.reviewedAt ≠ none) (hfinal : a.finalReviewedAt = none) :
      Change a now none { a with
        state := .finalReviewed
        finalReviewedAt := some now
        finalReviewedBy := some user
        finalReviewedByInstitution := some institution
        logs := a.logs ++ [log] }
  | directFinalReview (user institution : Nat) (log : AssessmentTransitionLog)
      (hlog : log.AskForFixTransitionWithComment) (hreviewed : a.reviewedAt = none)
      (hmissing : a.missingActionsToReview = []) :
      Change a now none { a with
        state := .finalReviewed
        reviewedAt := some now
        reviewedBy := some user
        reviewedByInstitution := some institution
        finalReviewedAt := some now
        finalReviewedBy := some user
        finalReviewedByInstitution := some institution
        logs := a.logs ++ [log] }
  | institutionFix (log : AssessmentTransitionLog) (hlog : log.AskForFixTransitionWithComment)
      (hreviewed : a.reviewedAt ≠ none) (hfinal : a.finalReviewedAt = none) :
      Change a now (some .askForInstitutionFix) { a with
        state := .submitted
        reviewedAt := none
        reviewedBy := none
        reviewedByInstitution := none
        logs := a.logs ++ [log] }
  | geiqFix (log : AssessmentTransitionLog) (hlog : log.AskForFixTransitionWithComment)
      (hsubmitted : a.submittedAt ≠ none) (hfinal : a.finalReviewedAt = none) :
      Change a now (some .askForGeiqFix) { a with
        state := .new
        submittedAt := none
        submittedBy := none
        reviewedAt := none
        reviewedBy := none
        reviewedByInstitution := none
        decisionValidatedAt := none
        grantsSelectionValidatedAt := none
        finalReviewedAt := none
        finalReviewedBy := none
        finalReviewedByInstitution := none
        contracts := a.contracts.map EmployeeContract.unselect
        logs := a.logs ++ [log] }

/-! ## Invariant -/

/-- The date is not later than this instant. -/
def NotAfter (date : Option DateTime) (clock : DateTime) : Prop := ∀ t ∈ date, t ≤ clock

/-- What holds of an assessment at each instant. -/
structure Assessment.Inv (a : Assessment) (clock : DateTime) : Prop where
  rows : a.RowsMeetConstraints
  synced : a.contractsSyncedAt = none → a.contracts = []
  submitted : a.submittedAt ≠ none → a.missingActionsToSubmit = []
  justified : a.contractsSelectionValidatedAt ≠ none → a.contractsAwaitingJustificationNbForGeiq = 0
  granted : ∀ c ∈ a.contracts, c.allowanceGranted → c.allowanceRefusalReason = none ∧ a.submittedAt ≠ none
  refused : a.grantsSelectionValidatedAt ≠ none → a.contractsAwaitingJustificationNbForInstitution = 0
  decided : a.decisionValidatedAt ≠ none → a.reviewComment ≠ ""
  createdAt : a.createdAt ≤ clock
  contractsSyncedAt : NotAfter a.contractsSyncedAt clock
  contractsSelectionValidatedAt : NotAfter a.contractsSelectionValidatedAt clock
  submittedAt : NotAfter a.submittedAt clock
  grantsSelectionValidatedAt : NotAfter a.grantsSelectionValidatedAt clock
  decisionValidatedAt : NotAfter a.decisionValidatedAt clock
  reviewedAt : NotAfter a.reviewedAt clock

variable {a a' : Assessment} {clock now : DateTime} {fix : Option InstitutionAction}

/-! ## Dates -/

section Dates

variable {prior later : Option DateTime}

theorem NullableDateOrder.ne_none (h : NullableDateOrder prior later) (hlater : later ≠ none) : prior ≠ none := by
  obtain ⟨l, hl⟩ := Option.ne_none_iff_exists'.mp hlater
  obtain ⟨p, hp, _⟩ := h l hl
  exact Option.ne_none_iff_exists'.mpr ⟨p, hp⟩

theorem NullableDateOrder.eq_none (h : NullableDateOrder prior later) (hprior : prior = none) : later = none :=
  Decidable.byContradiction fun hlater => h.ne_none hlater hprior

theorem nullableDateOrder_none (h : later = none) : NullableDateOrder prior later := by
  rw [h]
  exact nofun

/-- A date that is set now comes after a date that was set before. -/
theorem nullableDateOrder_now (hprior : prior ≠ none) (h : NotAfter prior clock) (hnow : clock ≤ now) :
    NullableDateOrder prior (some now) := by
  obtain ⟨p, hp⟩ := Option.ne_none_iff_exists'.mp hprior
  intro l hl
  cases hl
  exact ⟨p, hp, le_trans (h p hp) hnow⟩

theorem notAfter_now : NotAfter (some now) now := by
  intro t ht
  cases ht
  exact le_rfl

theorem notAfter_none : NotAfter none now := nofun

theorem NotAfter.mono (h : NotAfter prior clock) (hnow : clock ≤ now) : NotAfter prior now :=
  fun t ht => le_trans (h t ht) hnow

end Dates

namespace Assessment

theorem missingActionsToSubmit_eq_nil : a.missingActionsToSubmit = [] ↔
    a.summaryDocumentFile ≠ none ∧ a.structureFinancialAssessmentFile ≠ none ∧
      a.actionFinancialAssessmentFile ≠ none ∧ a.contractsSelectionValidatedAt ≠ none ∧ a.geiqComment ≠ "" := by
  simp only [missingActionsToSubmit, List.append_eq_nil_iff, ite_eq_right_iff, reduceCtorEq, imp_false, and_assoc,
    ne_eq]

theorem missingActionsToReview_eq_nil : a.missingActionsToReview = [] ↔
    a.grantsSelectionValidatedAt ≠ none ∧ a.decisionValidatedAt ≠ none := by
  simp only [missingActionsToReview, List.append_eq_nil_iff, ite_eq_right_iff, reduceCtorEq, imp_false, ne_eq]

namespace Constraints

theorem synced_of_selection (h : a.Constraints) : a.contractsSelectionValidatedAt ≠ none → a.contractsSyncedAt ≠ none :=
  h.contractsSyncedBeforeValidation.ne_none

theorem selection_of_submitted (h : a.Constraints) : a.submittedAt ≠ none → a.contractsSelectionValidatedAt ≠ none :=
  h.contractsValidatedBeforeSubmission.ne_none

theorem submitted_of_grants (h : a.Constraints) : a.grantsSelectionValidatedAt ≠ none → a.submittedAt ≠ none :=
  h.submissionBeforeGrantsValidated.ne_none

theorem grants_of_decision (h : a.Constraints) : a.decisionValidatedAt ≠ none → a.grantsSelectionValidatedAt ≠ none :=
  h.grantsValidatedBeforeDecision.ne_none

theorem decision_of_reviewed (h : a.Constraints) : a.reviewedAt ≠ none → a.decisionValidatedAt ≠ none :=
  h.decisionBeforeReview.ne_none

theorem reviewed_of_final (h : a.Constraints) : a.finalReviewedAt ≠ none → a.reviewedAt ≠ none :=
  h.reviewBeforeFinalReview.ne_none

theorem submitted_of_reviewed (h : a.Constraints) (hreviewed : a.reviewedAt ≠ none) : a.submittedAt ≠ none :=
  h.submitted_of_grants (h.grants_of_decision (h.decision_of_reviewed hreviewed))

/-- Nothing of the institutions is set before the submission. -/
theorem of_not_submitted (h : a.Constraints) (hsubmitted : a.submittedAt = none) :
    a.grantsSelectionValidatedAt = none ∧ a.decisionValidatedAt = none ∧ a.reviewedAt = none ∧
      a.finalReviewedAt = none := by
  have hgrants := h.submissionBeforeGrantsValidated.eq_none hsubmitted
  have hdecision := h.grantsValidatedBeforeDecision.eq_none hgrants
  have hreviewed := h.decisionBeforeReview.eq_none hdecision
  exact ⟨hgrants, hdecision, hreviewed, h.reviewBeforeFinalReview.eq_none hreviewed⟩

theorem not_submitted_of_selection (h : a.Constraints) (hselection : a.contractsSelectionValidatedAt = none) :
    a.submittedAt = none :=
  h.contractsValidatedBeforeSubmission.eq_none hselection

theorem final_of_not_reviewed (h : a.Constraints) (hreviewed : a.reviewedAt = none) : a.finalReviewedAt = none :=
  h.reviewBeforeFinalReview.eq_none hreviewed

theorem state_ne_final (h : a.Constraints) (hfinal : a.finalReviewedAt = none) : a.state ≠ .finalReviewed := by
  rcases h.stateFinalReviewedAt with ⟨_, hstate⟩ | ⟨hne, _⟩
  · exact hstate
  · exact absurd hfinal hne

theorem state_new_iff (h : a.Constraints) : a.state = .new ↔ a.submittedAt = none := by
  rcases h.stateSubmittedAt with ⟨hsubmitted, hstate⟩ | ⟨hsubmitted, hstate⟩
  · exact iff_of_true hstate hsubmitted
  · exact iff_of_false hstate hsubmitted

/-- A state other than `NEW` and `FINAL_REVIEWED` is known from the date of the review. -/
theorem state_eq (h : a.Constraints) (hsubmitted : a.submittedAt ≠ none) (hfinal : a.finalReviewedAt = none) :
    a.reviewedAt = none ∧ a.state = .submitted ∨ a.reviewedAt ≠ none ∧ a.state = .reviewed := by
  have hnew : a.state ≠ .new := fun hstate => hsubmitted (h.state_new_iff.mp hstate)
  rcases h.stateReviewedAt with ⟨hreviewed, hstate⟩ | ⟨hreviewed, hstate⟩
  · exact Or.inl ⟨hreviewed, hstate.resolve_left hnew⟩
  · exact Or.inr ⟨hreviewed, hstate.resolve_right (h.state_ne_final hfinal)⟩

end Constraints

end Assessment

/-! ## Rows -/

theorem logs_append {logs : List AssessmentTransitionLog} {log : AssessmentTransitionLog}
    (h : ∀ l ∈ logs, l.AskForFixTransitionWithComment) (hlog : log.AskForFixTransitionWithComment) :
    ∀ l ∈ logs ++ [log], l.AskForFixTransitionWithComment := by
  intro l hl
  rcases List.mem_append.mp hl with hl | hl
  · exact h l hl
  · rw [List.mem_singleton.mp hl]
    exact hlog

theorem ReviewForm.of_errors {form : ReviewForm} (h : form.errors = []) :
    form.reviewComment ≠ "" ∧ 0 ≤ form.conventionAmount.getD 0 ∧ 0 ≤ form.grantedAmount.getD 0 ∧
      0 ≤ form.advanceAmount.getD 0 ∧ form.geiqResponsiblePerson ≠ "" ∧ form.institutionResponsiblePerson ≠ "" ∧
      form.legalCommitmentNumber ≠ "" := by
  have htext : ∀ field text, textErrors field text = [] → text ≠ "" := by
    intro field text htext
    unfold textErrors at htext
    split at htext
    · cases htext
    · assumption
  have hamount : ∀ field amount, amountErrors field amount = [] → 0 ≤ amount.getD 0 := by
    intro field amount hamount
    cases amount with
    | none => cases hamount
    | some amount =>
        rw [amountErrors] at hamount
        split at hamount
        · cases hamount
        · rename_i hnonneg
          exact not_lt.mp hnonneg
  simp only [errors, List.append_eq_nil_iff] at h
  obtain ⟨⟨⟨⟨⟨⟨⟨hcomment, hconvention⟩, hgranted⟩, hadvance⟩, hgeiq⟩, hinstitution⟩, hnumber⟩, _⟩ := h
  exact ⟨htext _ _ hcomment, hamount _ _ hconvention, hamount _ _ hgranted, hamount _ _ hadvance, htext _ _ hgeiq,
    htext _ _ hinstitution, htext _ _ hnumber⟩

/-- Under the invariant, no change is refused by the tables. -/
theorem Change.rows (h : a.Inv clock) (hnow : clock ≤ now) (hchange : Change a now fix a') : a'.RowsMeetConstraints := by
  obtain ⟨hrow, hcontracts, hlogs⟩ := h.rows
  cases hchange with
  | same => exact h.rows
  | submit user log hlog hsubmitted hmissing =>
      obtain ⟨hgrants, _, hreviewed, hfinal⟩ := hrow.of_not_submitted hsubmitted
      obtain ⟨_, _, _, hselection, hcomment⟩ := Assessment.missingActionsToSubmit_eq_nil.mp hmissing
      refine ⟨{ hrow with
        contractsValidatedBeforeSubmission := nullableDateOrder_now hselection h.contractsSelectionValidatedAt hnow
        submissionBeforeGrantsValidated := nullableDateOrder_none hgrants
        fullOrNoSubmission := Or.inr ⟨⟨nofun, nofun⟩, fun hnone => hcomment hnone.1⟩
        stateSubmittedAt := Or.inr ⟨nofun, nofun⟩
        stateReviewedAt := Or.inl ⟨hreviewed, Or.inr rfl⟩
        stateFinalReviewedAt := Or.inl ⟨hfinal, nofun⟩ }, ?_, logs_append hlogs hlog⟩
      · intro c hc
        obtain ⟨c₀, hc₀, rfl⟩ := List.mem_map.mp hc
        exact (hcontracts c₀ hc₀).preselect
  | syncSummary file hfile =>
      refine ⟨{ hrow with fullOrNoSubmission := ?_ }, hcontracts, hlogs⟩
      refine Or.inl (Decidable.byContradiction fun hsubmitted => ?_)
      exact (Assessment.missingActionsToSubmit_eq_nil.mp (h.submitted hsubmitted)).1 hfile
  | syncStructure file hfile =>
      refine ⟨{ hrow with fullOrNoSubmission := ?_ }, hcontracts, hlogs⟩
      refine Or.inl (Decidable.byContradiction fun hsubmitted => ?_)
      exact (Assessment.missingActionsToSubmit_eq_nil.mp (h.submitted hsubmitted)).2.1 hfile
  | uploadAction file hsubmitted =>
      exact ⟨{ hrow with fullOrNoSubmission := Or.inl hsubmitted }, hcontracts, hlogs⟩
  | comment text hsubmitted =>
      exact ⟨{ hrow with fullOrNoSubmission := Or.inl hsubmitted }, hcontracts, hlogs⟩
  | contractsSync infos hsynced =>
      have hselection := hrow.contractsSyncedBeforeValidation.eq_none hsynced
      refine ⟨{ hrow with
        createdBeforeContractsSynced := fun l hl => ⟨_, rfl, ?_⟩
        contractsSyncedBeforeValidation := nullableDateOrder_none hselection }, ?_, hlogs⟩
      · cases hl
        exact le_trans h.createdAt hnow
      · intro c hc
        obtain ⟨info, _, rfl⟩ := List.mem_map.mp hc
        exact EmployeeContract.constraints_contractDataToDjango info
  | validateSelection hsubmitted hsynced hawaiting =>
      refine ⟨{ hrow with
        contractsSyncedBeforeValidation :=
          nullableDateOrder_now (Option.isSome_iff_ne_none.mp hsynced) h.contractsSyncedAt hnow
        contractsValidatedBeforeSubmission := nullableDateOrder_none hsubmitted }, hcontracts, hlogs⟩
  | invalidateSelection hsubmitted =>
      refine ⟨{ hrow with
        contractsSyncedBeforeValidation := nullableDateOrder_none rfl
        contractsValidatedBeforeSubmission := nullableDateOrder_none hsubmitted }, hcontracts, hlogs⟩
  | validateGrants hsubmitted hreviewed hgrants hawaiting =>
      have hdecision := hrow.grantsValidatedBeforeDecision.eq_none hgrants
      refine ⟨{ hrow with
        submissionBeforeGrantsValidated := nullableDateOrder_now hsubmitted h.submittedAt hnow
        grantsValidatedBeforeDecision := nullableDateOrder_none hdecision }, hcontracts, hlogs⟩
  | invalidateGrants hreviewed =>
      refine ⟨{ hrow with
        submissionBeforeGrantsValidated := nullableDateOrder_none rfl
        grantsValidatedBeforeDecision := nullableDateOrder_none rfl
        decisionBeforeReview := nullableDateOrder_none hreviewed }, hcontracts, hlogs⟩
  | contractOfGeiq pk c c' hselection hc hfields hconstraints =>
      refine ⟨{ hrow with }, fun x hx => ?_, hlogs⟩
      rcases List.mem_or_eq_of_mem_set hx with hx | rfl
      · exact hcontracts x hx
      · exact hconstraints
  | contractOfInstitution pk c c' hsubmitted hgrants hc hfields hconstraints hgranted =>
      refine ⟨{ hrow with }, fun x hx => ?_, hlogs⟩
      rcases List.mem_or_eq_of_mem_set hx with hx | rfl
      · exact hcontracts x hx
      · exact hconstraints
  | decision form hgrants hreviewed herrors =>
      obtain ⟨hcomment, hconvention, hgranted, hadvance, hgeiq, hinstitution, hnumber⟩ := ReviewForm.of_errors herrors
      refine ⟨{ hrow with
        grantsValidatedBeforeDecision := nullableDateOrder_now hgrants h.grantsSelectionValidatedAt hnow
        decisionBeforeReview := nullableDateOrder_none hreviewed
        fullOrNoReview := Or.inl hreviewed
        responsiblePersonsLegalCommitmentNumber := Or.inr (not_or.mpr ⟨hgeiq, not_or.mpr ⟨hinstitution, hnumber⟩⟩)
        amountsAreZeroPositiveOrNull := ⟨hconvention, hgranted, hadvance⟩ }, hcontracts, hlogs⟩
  | review user institution log hlog hreviewed hmissing =>
      obtain ⟨hgrants, hdecision⟩ := Assessment.missingActionsToReview_eq_nil.mp hmissing
      have hfinal := hrow.final_of_not_reviewed hreviewed
      have hsubmitted := hrow.submitted_of_grants hgrants
      refine ⟨{ hrow with
        decisionBeforeReview := nullableDateOrder_now hdecision h.decisionValidatedAt hnow
        reviewBeforeFinalReview := nullableDateOrder_none hfinal
        stateSubmittedAt := Or.inr ⟨hsubmitted, nofun⟩
        fullOrNoReview := Or.inr ⟨⟨nofun, nofun, nofun⟩, h.decided hdecision⟩
        stateReviewedAt := Or.inr ⟨nofun, Or.inl rfl⟩
        stateFinalReviewedAt := Or.inl ⟨hfinal, nofun⟩ }, hcontracts, logs_append hlogs hlog⟩
  | finalReview user institution log hlog hreviewed hfinal =>
      have hsubmitted := hrow.submitted_of_reviewed hreviewed
      exact ⟨{ hrow with
        reviewBeforeFinalReview := nullableDateOrder_now hreviewed h.reviewedAt hnow
        stateSubmittedAt := Or.inr ⟨hsubmitted, nofun⟩
        stateReviewedAt := Or.inr ⟨hreviewed, Or.inr rfl⟩
        fullOrNoFinalReview := Or.inr ⟨nofun, nofun, nofun⟩
        stateFinalReviewedAt := Or.inr ⟨nofun, rfl⟩ }, hcontracts, logs_append hlogs hlog⟩
  | directFinalReview user institution log hlog hreviewed hmissing =>
      obtain ⟨hgrants, hdecision⟩ := Assessment.missingActionsToReview_eq_nil.mp hmissing
      have hsubmitted := hrow.submitted_of_grants hgrants
      exact ⟨{ hrow with
        decisionBeforeReview := nullableDateOrder_now hdecision h.decisionValidatedAt hnow
        reviewBeforeFinalReview := nullableDateOrder_now nofun notAfter_now le_rfl
        stateSubmittedAt := Or.inr ⟨hsubmitted, nofun⟩
        fullOrNoReview := Or.inr ⟨⟨nofun, nofun, nofun⟩, h.decided hdecision⟩
        stateReviewedAt := Or.inr ⟨nofun, Or.inr rfl⟩
        fullOrNoFinalReview := Or.inr ⟨nofun, nofun, nofun⟩
        stateFinalReviewedAt := Or.inr ⟨nofun, rfl⟩ }, hcontracts, logs_append hlogs hlog⟩
  | institutionFix log hlog hreviewed hfinal =>
      have hsubmitted := hrow.submitted_of_reviewed hreviewed
      refine ⟨{ hrow with
        decisionBeforeReview := nullableDateOrder_none rfl
        reviewBeforeFinalReview := nullableDateOrder_none hfinal
        stateSubmittedAt := Or.inr ⟨hsubmitted, nofun⟩
        fullOrNoReview := Or.inl rfl
        stateReviewedAt := Or.inl ⟨rfl, Or.inr rfl⟩
        stateFinalReviewedAt := Or.inl ⟨hfinal, nofun⟩ }, hcontracts, logs_append hlogs hlog⟩
  | geiqFix log hlog hsubmitted hfinal =>
      refine ⟨{ hrow with
        contractsValidatedBeforeSubmission := nullableDateOrder_none rfl
        submissionBeforeGrantsValidated := nullableDateOrder_none rfl
        grantsValidatedBeforeDecision := nullableDateOrder_none rfl
        decisionBeforeReview := nullableDateOrder_none rfl
        reviewBeforeFinalReview := nullableDateOrder_none rfl
        fullOrNoSubmission := Or.inl rfl
        stateSubmittedAt := Or.inl ⟨rfl, rfl⟩
        fullOrNoReview := Or.inl rfl
        stateReviewedAt := Or.inl ⟨rfl, Or.inl rfl⟩
        fullOrNoFinalReview := Or.inl rfl
        stateFinalReviewedAt := Or.inl ⟨rfl, nofun⟩ }, ?_, logs_append hlogs hlog⟩
      intro c hc
      obtain ⟨c₀, hc₀, rfl⟩ := List.mem_map.mp hc
      exact (hcontracts c₀ hc₀).unselect

end Itou.GeiqAssessments
