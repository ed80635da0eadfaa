import Itou.GeiqAssessments.Lemmas.Changes

/-!
# The invariant of assessments

Each change keeps the invariant, and leaves what is frozen at that time.
-/

namespace Itou.GeiqAssessments

open Itou.Lib

variable {a a' : Assessment} {clock now : DateTime} {fix : Option InstitutionAction}

/-! ## Counts of contracts -/

/-- The column is the same when the new row has the value of the old one. -/
theorem map_set_of_eq {α β : Type} {f : α → β} {l : List α} {i : Nat} {x y : α} (hx : l[i]? = some x)
    (hy : f y = f x) : (l.set i y).map f = l.map f := by
  obtain ⟨hi, rfl⟩ := List.getElem?_eq_some_iff.mp hx
  have hi' : i < (l.map f).length := by rwa [List.length_map]
  have hmap : (l.map f)[i] = f l[i] := List.getElem_map f
  rw [List.map_set, hy, ← hmap, List.set_getElem_self]

namespace Assessment

theorem awaitingForGeiq_eq_zero : a.contractsAwaitingJustificationNbForGeiq = 0 ↔
    ∀ c ∈ a.contracts, c.requiresJustification → c.allowanceRequestJustificationReason ≠ none := by
  simp only [contractsAwaitingJustificationNbForGeiq, List.countP_eq_zero, EmployeeContract.requiresJustification,
    Bool.and_eq_true, decide_eq_true_eq, Option.isNone_iff_eq_none, not_and, ne_eq, and_imp]

theorem awaitingForInstitution_eq_zero : a.contractsAwaitingJustificationNbForInstitution = 0 ↔
    ∀ c ∈ a.contracts, c.allowanceRequested → ¬ c.allowanceGranted → c.allowanceRefusalReason ≠ none := by
  simp only [contractsAwaitingJustificationNbForInstitution, List.countP_eq_zero, Bool.and_eq_true, Bool.not_eq_true',
    Bool.not_eq_true, Option.isNone_iff_eq_none, not_and, ne_eq, and_imp]

/-- The contracts that wait for a justification are known from the fields of the GEIQ. -/
theorem awaitingForGeiq_congr
    (h : a'.contracts.map EmployeeContract.geiqFields = a.contracts.map EmployeeContract.geiqFields) :
    a'.contractsAwaitingJustificationNbForGeiq = a.contractsAwaitingJustificationNbForGeiq := by
  have hcount : ∀ x : Assessment, x.contractsAwaitingJustificationNbForGeiq =
      (x.contracts.map EmployeeContract.geiqFields).countP fun c => c.allowanceRequested &&
        decide (c.nbDaysInCampaignYear < minDaysInYearForAllowance) &&
        c.allowanceRequestJustificationReason.isNone := by
    intro x
    rw [List.countP_map]
    rfl
  rw [hcount, hcount, h]

end Assessment

namespace Change

/-- The changes of the institutions, the submission and the fixes leave what the GEIQ fills in the contracts. -/
theorem map_geiqFields (h : a.Inv clock) (hselection : a.contractsSelectionValidatedAt ≠ none)
    (hchange : Change a now fix a') :
    a'.contracts.map EmployeeContract.geiqFields = a.contracts.map EmployeeContract.geiqFields := by
  cases hchange with
  | submit user log hlog hsubmitted hmissing =>
      rw [List.map_map]
      exact List.map_congr_left fun c _ => EmployeeContract.preselect_geiqFields
  | contractsSync infos hsynced =>
      exact absurd hsynced (h.rows.assessment.synced_of_selection hselection)
  | contractOfGeiq pk c c' hnone hc hfields hconstraints => exact absurd hnone hselection
  | contractOfInstitution pk c c' hsubmitted hgrants hc hfields hconstraints hgranted =>
      exact map_set_of_eq hc hfields
  | geiqFix log hlog hsubmitted hfinal =>
      rw [List.map_map]
      exact List.map_congr_left fun c _ => rfl
  | _ => rfl

/-! ## One fact at a time -/

variable (h : a.Inv clock) (hchange : Change a now fix a')

include h hchange

theorem synced : a'.contractsSyncedAt = none → a'.contracts = [] := by
  cases hchange with
  | submit user log hlog hsubmitted hmissing => exact fun hs => by rw [h.synced hs]; rfl
  | contractsSync infos hsynced => exact nofun
  | contractOfGeiq pk c c' hselection hc hfields hconstraints => exact fun hs => by rw [h.synced hs]; rfl
  | contractOfInstitution pk c c' hsubmitted hgrants hc hfields hconstraints hgranted =>
      exact fun hs => by rw [h.synced hs]; rfl
  | geiqFix log hlog hsubmitted hfinal => exact fun hs => by rw [h.synced hs]; rfl
  | _ => exact h.synced

theorem submitted : a'.submittedAt ≠ none → a'.missingActionsToSubmit = [] := by
  have hfiles := fun hs => Assessment.missingActionsToSubmit_eq_nil.mp (h.submitted hs)
  cases hchange with
  | submit user log hlog hsubmitted hmissing => exact fun _ => hmissing
  | syncSummary file hfile => exact fun hs => absurd hfile (hfiles hs).1
  | syncStructure file hfile => exact fun hs => absurd hfile (hfiles hs).2.1
  | uploadAction file hsubmitted => exact fun hs => absurd hsubmitted hs
  | comment text hsubmitted => exact fun hs => absurd hsubmitted hs
  | validateSelection hsubmitted hsynced hawaiting => exact fun hs => absurd hsubmitted hs
  | invalidateSelection hsubmitted => exact fun hs => absurd hsubmitted hs
  | geiqFix log hlog hsubmitted hfinal => exact fun hs => absurd rfl hs
  | _ => exact h.submitted

theorem justified : a'.contractsSelectionValidatedAt ≠ none → a'.contractsAwaitingJustificationNbForGeiq = 0 := by
  intro hselection
  by_cases hold : a.contractsSelectionValidatedAt = none
  · cases hchange with
    | validateSelection hsubmitted hsynced hawaiting => exact hawaiting
    | invalidateSelection hsubmitted => exact absurd rfl hselection
    | _ => exact absurd hold hselection
  · rw [Assessment.awaitingForGeiq_congr (map_geiqFields h hold hchange)]
    exact h.justified hold

theorem granted : ∀ c ∈ a'.contracts, c.allowanceGranted → c.allowanceRefusalReason = none ∧ a'.submittedAt ≠ none := by
  cases hchange with
  | submit user log hlog hsubmitted hmissing =>
      intro c hc hgranted
      obtain ⟨c₀, hc₀, rfl⟩ := List.mem_map.mp hc
      refine ⟨?_, nofun⟩
      rw [EmployeeContract.preselect_refusal.1]
      unfold EmployeeContract.preselect at hgranted
      split at hgranted
      · assumption
      · exact (h.granted c₀ hc₀ hgranted).1
  | contractsSync infos hsynced =>
      intro c hc hgranted
      obtain ⟨info, _, rfl⟩ := List.mem_map.mp hc
      exact absurd hgranted Bool.false_ne_true
  | contractOfGeiq pk c c' hselection hc hfields hconstraints =>
      intro x hx hgranted
      rcases List.mem_or_eq_of_mem_set hx with hx | rfl
      · exact h.granted x hx hgranted
      · obtain ⟨hgranted', hreason, _⟩ := ContractInstitutionFields.mk.inj hfields
        have hold := h.granted c (List.mem_of_getElem? hc) (hgranted' ▸ hgranted)
        exact ⟨hreason.trans hold.1, hold.2⟩
  | contractOfInstitution pk c c' hsubmitted hgrants hc hfields hconstraints hnone =>
      intro x hx hgranted
      rcases List.mem_or_eq_of_mem_set hx with hx | rfl
      · exact h.granted x hx hgranted
      · exact ⟨hnone hgranted, hsubmitted⟩
  | geiqFix log hlog hsubmitted hfinal =>
      intro c hc hgranted
      obtain ⟨c₀, _, rfl⟩ := List.mem_map.mp hc
      exact absurd hgranted Bool.false_ne_true
  | _ => exact h.granted

theorem refused :
    a'.grantsSelectionValidatedAt ≠ none → a'.contractsAwaitingJustificationNbForInstitution = 0 := by
  have hrow := h.rows.assessment
  -- Before the submission, no grants are validated.
  have hnone := fun hsubmitted => (hrow.of_not_submitted hsubmitted).1
  cases hchange with
  | submit user log hlog hsubmitted hmissing => exact fun hg => absurd (hnone hsubmitted) hg
  | contractsSync infos hsynced =>
      have hselection := hrow.contractsSyncedBeforeValidation.eq_none hsynced
      exact fun hg => absurd (hnone (hrow.not_submitted_of_selection hselection)) hg
  | validateGrants hsubmitted hreviewed hgrants hawaiting => exact fun _ => hawaiting
  | invalidateGrants hreviewed => exact fun hg => absurd rfl hg
  | contractOfGeiq pk c c' hselection hc hfields hconstraints =>
      exact fun hg => absurd (hnone (hrow.not_submitted_of_selection hselection)) hg
  | contractOfInstitution pk c c' hsubmitted hgrants hc hfields hconstraints hgranted =>
      exact fun hg => absurd hgrants hg
  | geiqFix log hlog hsubmitted hfinal => exact fun hg => absurd rfl hg
  | _ => exact h.refused

theorem decided : a'.decisionValidatedAt ≠ none → a'.reviewComment ≠ "" := by
  cases hchange with
  | invalidateGrants hreviewed => exact fun hd => absurd rfl hd
  | decision form hgrants hreviewed herrors => exact fun _ => (ReviewForm.of_errors herrors).1
  | geiqFix log hlog hsubmitted hfinal => exact fun hd => absurd rfl hd
  | _ => exact h.decided

/-- Under the invariant, a change keeps the invariant. -/
theorem inv (hnow : clock ≤ now) : a'.Inv now where
  rows := rows h hnow hchange
  synced := synced h hchange
  submitted := submitted h hchange
  justified := justified h hchange
  granted := granted h hchange
  refused := refused h hchange
  decided := decided h hchange
  createdAt := by cases hchange <;> exact le_trans h.createdAt hnow
  contractsSyncedAt := by
    cases hchange with
    | contractsSync infos hsynced => exact notAfter_now
    | _ => exact h.contractsSyncedAt.mono hnow
  contractsSelectionValidatedAt := by
    cases hchange with
    | validateSelection hsubmitted hsynced hawaiting => exact notAfter_now
    | invalidateSelection hsubmitted => exact notAfter_none
    | _ => exact h.contractsSelectionValidatedAt.mono hnow
  submittedAt := by
    cases hchange with
    | submit user log hlog hsubmitted hmissing => exact notAfter_now
    | geiqFix log hlog hsubmitted hfinal => exact notAfter_none
    | _ => exact h.submittedAt.mono hnow
  grantsSelectionValidatedAt := by
    cases hchange with
    | validateGrants hsubmitted hreviewed hgrants hawaiting => exact notAfter_now
    | invalidateGrants hreviewed => exact notAfter_none
    | geiqFix log hlog hsubmitted hfinal => exact notAfter_none
    | _ => exact h.grantsSelectionValidatedAt.mono hnow
  decisionValidatedAt := by
    cases hchange with
    | invalidateGrants hreviewed => exact notAfter_none
    | decision form hgrants hreviewed herrors => exact notAfter_now
    | geiqFix log hlog hsubmitted hfinal => exact notAfter_none
    | _ => exact h.decisionValidatedAt.mono hnow
  reviewedAt := by
    cases hchange with
    | review user institution log hlog hreviewed hmissing => exact notAfter_now
    | directFinalReview user institution log hlog hreviewed hmissing => exact notAfter_now
    | institutionFix log hlog hreviewed hfinal => exact notAfter_none
    | geiqFix log hlog hsubmitted hfinal => exact notAfter_none
    | _ => exact h.reviewedAt.mono hnow

/-! ## What is frozen -/

/-- Once submitted, what the GEIQ fills changes by a fix only. -/
theorem geiqFields (hsubmitted : a.submittedAt ≠ none) (hfix : fix ≠ some .askForGeiqFix) :
    a'.geiqFields = a.geiqFields := by
  have hrow := h.rows.assessment
  have hselection := hrow.selection_of_submitted hsubmitted
  have hfiles := Assessment.missingActionsToSubmit_eq_nil.mp (h.submitted hsubmitted)
  have hcontracts := map_geiqFields h hselection hchange
  unfold Assessment.geiqFields
  rw [hcontracts]
  cases hchange with
  | submit user log hlog hnone hmissing => exact absurd hnone hsubmitted
  | syncSummary file hfile => exact absurd hfile hfiles.1
  | syncStructure file hfile => exact absurd hfile hfiles.2.1
  | uploadAction file hnone => exact absurd hnone hsubmitted
  | comment text hnone => exact absurd hnone hsubmitted
  | contractsSync infos hsynced => exact absurd hsynced (hrow.synced_of_selection hselection)
  | validateSelection hnone hsynced hawaiting => exact absurd hnone hsubmitted
  | invalidateSelection hnone => exact absurd hnone hsubmitted
  | geiqFix log hlog hnone hfinal => exact absurd rfl hfix
  | _ => rfl

/-- Once reviewed, what the institutions fill changes by a fix only. -/
theorem institutionFields (hreviewed : a.reviewedAt ≠ none) (hfix : fix = none) :
    a'.institutionFields = a.institutionFields ∧ a'.reviewedAt ≠ none := by
  have hrow := h.rows.assessment
  have hgrants := hrow.grants_of_decision (hrow.decision_of_reviewed hreviewed)
  have hsubmitted := hrow.submitted_of_grants hgrants
  have hselection := hrow.selection_of_submitted hsubmitted
  cases hchange with
  | submit user log hlog hnone hmissing => exact absurd hnone hsubmitted
  | contractsSync infos hsynced => exact absurd hsynced (hrow.synced_of_selection hselection)
  | validateGrants hsub hnone hg hawaiting => exact absurd hnone hreviewed
  | invalidateGrants hnone => exact absurd hnone hreviewed
  | contractOfGeiq pk c c' hnone hc hfields hconstraints => exact absurd hnone hselection
  | contractOfInstitution pk c c' hsub hnone hc hfields hconstraints hgranted => exact absurd hnone hgrants
  | decision form hg hnone herrors => exact absurd hnone hreviewed
  | review user institution log hlog hnone hmissing => exact absurd hnone hreviewed
  | directFinalReview user institution log hlog hnone hmissing => exact absurd hnone hreviewed
  | institutionFix log hlog hr hfinal => exact absurd hfix nofun
  | geiqFix log hlog hsub hfinal => exact absurd hfix nofun
  | _ => exact ⟨rfl, hreviewed⟩

/-- After the final review, nothing changes. -/
theorem eq_of_final (hfinal : a.finalReviewedAt ≠ none) : a' = a := by
  have hrow := h.rows.assessment
  have hreviewed := hrow.reviewed_of_final hfinal
  have hgrants := hrow.grants_of_decision (hrow.decision_of_reviewed hreviewed)
  have hsubmitted := hrow.submitted_of_grants hgrants
  have hselection := hrow.selection_of_submitted hsubmitted
  have hfiles := Assessment.missingActionsToSubmit_eq_nil.mp (h.submitted hsubmitted)
  cases hchange with
  | same => rfl
  | submit user log hlog hnone hmissing => exact absurd hnone hsubmitted
  | syncSummary file hfile => exact absurd hfile hfiles.1
  | syncStructure file hfile => exact absurd hfile hfiles.2.1
  | uploadAction file hnone => exact absurd hnone hsubmitted
  | comment text hnone => exact absurd hnone hsubmitted
  | contractsSync infos hsynced => exact absurd hsynced (hrow.synced_of_selection hselection)
  | validateSelection hnone hsynced hawaiting => exact absurd hnone hsubmitted
  | invalidateSelection hnone => exact absurd hnone hsubmitted
  | validateGrants hsub hnone hg hawaiting => exact absurd hnone hreviewed
  | invalidateGrants hnone => exact absurd hnone hreviewed
  | contractOfGeiq pk c c' hnone hc hfields hconstraints => exact absurd hnone hselection
  | contractOfInstitution pk c c' hsub hnone hc hfields hconstraints hgranted => exact absurd hnone hgrants
  | decision form hg hnone herrors => exact absurd hnone hreviewed
  | review user institution log hlog hnone hmissing => exact absurd hnone hreviewed
  | finalReview user institution log hlog hr hnone => exact absurd hnone hfinal
  | directFinalReview user institution log hlog hnone hmissing => exact absurd hnone hreviewed
  | institutionFix log hlog hr hnone => exact absurd hnone hfinal
  | geiqFix log hlog hsub hnone => exact absurd hnone hfinal

end Change

/-- An assessment that was just created. -/
theorem Assessment.create_inv (companies institutions : List Nat) (createdAt : DateTime) :
    (Assessment.create companies institutions createdAt).Inv createdAt where
  rows := {
    assessment := {
      createdBeforeContractsSynced := nofun
      contractsSyncedBeforeValidation := nofun
      contractsValidatedBeforeSubmission := nofun
      submissionBeforeGrantsValidated := nofun
      grantsValidatedBeforeDecision := nofun
      decisionBeforeReview := nofun
      reviewBeforeFinalReview := nofun
      fullOrNoSubmission := Or.inl rfl
      stateSubmittedAt := Or.inl ⟨rfl, rfl⟩
      fullOrNoReview := Or.inl rfl
      responsiblePersonsLegalCommitmentNumber := Or.inl ⟨rfl, rfl, rfl⟩
      stateReviewedAt := Or.inl ⟨rfl, Or.inl rfl⟩
      fullOrNoFinalReview := Or.inl rfl
      stateFinalReviewedAt := Or.inl ⟨rfl, nofun⟩
      amountsAreZeroPositiveOrNull := ⟨le_rfl, le_rfl, le_rfl⟩ }
    contracts := nofun
    logs := nofun }
  synced := fun _ => rfl
  submitted := fun h => absurd rfl h
  justified := fun h => absurd rfl h
  granted := nofun
  refused := fun h => absurd rfl h
  decided := fun h => absurd rfl h
  createdAt := le_rfl
  contractsSyncedAt := notAfter_none
  contractsSelectionValidatedAt := notAfter_none
  submittedAt := notAfter_none
  grantsSelectionValidatedAt := notAfter_none
  decisionValidatedAt := notAfter_none
  reviewedAt := notAfter_none

end Itou.GeiqAssessments
