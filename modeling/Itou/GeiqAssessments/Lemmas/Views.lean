import Itou.GeiqAssessments.Lemmas.Invariant

/-!
# Answers of the views

Under the invariant, a view refuses a request or makes one of the changes, unless something was missing.
-/

namespace Itou.GeiqAssessments

open Itou.Lib

variable {a a' : Assessment} {clock now : DateTime} {fix : Option InstitutionAction} {x y : Except Failure Assessment}

/-- The view refuses the request, or makes a change. -/
def Answers (a : Assessment) (now : DateTime) (fix : Option InstitutionAction) (x : Except Failure Assessment) : Prop :=
  (∃ failure, x = .error failure ∧ ¬ failure.Raised) ∨ ∃ a', Change a now fix a' ∧ x = .ok a'

/-- The code raises. -/
def Raised (x : Except Failure Assessment) : Prop := ∃ failure, x = .error failure ∧ failure.Raised

namespace Answers

theorem refuse {failure : Failure} (h : ¬ failure.Raised) : Answers a now fix (.error failure) :=
  Or.inl ⟨failure, rfl, h⟩

theorem same : Answers a now fix (.ok a) := Or.inr ⟨a, .same fix, rfl⟩

end Answers

theorem Assessment.save_eq_ok (h : a.RowsMeetConstraints) : a.save = .ok a := if_pos h

theorem Assessment.raised_save (h : ¬ a.RowsMeetConstraints) : Raised a.save := ⟨.integrityError, if_neg h, trivial⟩

/-- A form without errors has a reason and details. -/
theorem JustificationForm.of_errors {ρ : Type} {form : JustificationForm ρ} {reasonField detailsField : String}
    (h : form.errors reasonField detailsField = []) : ¬ (form.reason = none ∨ form.details = "") := by
  simp only [JustificationForm.errors, List.append_eq_nil_iff, ite_eq_right_iff, reduceCtorEq, imp_false,
    Option.isNone_iff_eq_none] at h
  exact not_or.mpr h

variable (h : a.Inv clock) (hnow : clock ≤ now)

include h hnow

/-- No change is refused by the tables. -/
theorem Answers.save (hchange : Change a now fix a') : Answers a now fix a'.save :=
  Or.inr ⟨a', hchange, Assessment.save_eq_ok (hchange.rows h hnow)⟩

omit hnow in
theorem updateContract_answers {pk : Nat} {f : EmployeeContract → Except Failure EmployeeContract}
    (hf : ∀ c, a.contracts[pk]? = some c →
      (∃ failure, f c = .error failure ∧ ¬ failure.Raised) ∨ f c = .ok c ∨
        ∃ c', f c = .ok c' ∧ Answers a now fix (Assessment.save { a with contracts := a.contracts.set pk c' })) :
    Answers a now fix (a.updateContract pk f) := by
  unfold Assessment.updateContract
  split
  · exact .refuse id
  · rename_i c hc
    rcases hf c hc with ⟨failure, hfail, hnot⟩ | hok | ⟨c', hok, hanswers⟩
    · rw [hfail]
      exact .refuse hnot
    · obtain ⟨hi, rfl⟩ := List.getElem?_eq_some_iff.mp hc
      rw [hok]
      change Answers a now fix (Assessment.save { a with contracts := a.contracts.set pk a.contracts[pk] })
      rw [List.set_getElem_self]
      exact Or.inr ⟨a, .same fix, Assessment.save_eq_ok h.rows⟩
    · rw [hok]
      exact hanswers

/-! ## Views of the GEIQ -/

theorem assessmentDetailsForGeiq_answers (user : Nat) : Answers a now none (a.assessmentDetailsForGeiq now user) := by
  unfold Assessment.assessmentDetailsForGeiq
  split
  · exact .refuse id
  · rename_i hsubmitted
    split
    · exact .refuse id
    · rename_i hmissing
      have hnone := Option.not_isSome_iff_eq_none.mp hsubmitted
      have hstate : a.state ∈ AssessmentTransition.submit.source :=
        List.mem_singleton.mpr (h.rows.assessment.state_new_iff.mpr hnone)
      let log : AssessmentTransitionLog := ⟨.submit, a.state, .submitted, user, none, "", now⟩
      have hlog : log.AskForFixTransitionWithComment := Or.inr ⟨by simp [log], rfl⟩
      have hchange : Change a now none _ := .submit user log hlog hnone (not_not.mp hmissing)
      have hrows := hchange.rows h hnow
      -- The first save is that of the transition, before the contracts are preselected.
      let submitted : Assessment :=
        { a with state := .submitted, submittedAt := some now, submittedBy := some user, logs := a.logs ++ [log] }
      have hsubmit : a.submit now user = .ok submitted :=
        (if_pos hstate).trans
          (Assessment.save_eq_ok ⟨{ hrows.assessment with }, h.rows.contracts, hrows.logs⟩)
      have hpreselect : submitted.preselectContracts = .ok _ := Assessment.save_eq_ok hrows
      exact Or.inr ⟨_, hchange, bind_eq_ok.mpr ⟨submitted, hsubmit, hpreselect⟩⟩

theorem assessmentSyncFile_answers (field : SyncFile) (retrieved : Option Nat) :
    Answers a now none (a.assessmentSyncFile field retrieved) := by
  unfold Assessment.assessmentSyncFile
  cases field with
  | summaryDocumentFile =>
      dsimp only
      split
      · exact .same
      · rename_i hfile
        exact .save h hnow (.syncSummary retrieved (Option.not_isSome_iff_eq_none.mp hfile))
  | structureFinancialAssessmentFile =>
      dsimp only
      split
      · exact .same
      · rename_i hfile
        exact .save h hnow (.syncStructure retrieved (Option.not_isSome_iff_eq_none.mp hfile))

theorem uploadActionFinancialAssessment_answers (file : Option Nat) :
    Answers a now none (a.uploadActionFinancialAssessment file) := by
  unfold Assessment.uploadActionFinancialAssessment
  split
  · exact .refuse id
  · rename_i hsubmitted
    cases file with
    | none => exact .refuse id
    | some file => exact .save h hnow (.uploadAction file (Option.not_isSome_iff_eq_none.mp hsubmitted))

theorem assessmentComment_answers (comment : String) : Answers a now none (a.assessmentComment comment) := by
  unfold Assessment.assessmentComment
  split
  · exact .refuse id
  · rename_i hsubmitted
    split
    · exact .refuse id
    · exact .save h hnow (.comment comment (Option.not_isSome_iff_eq_none.mp hsubmitted))

theorem assessmentContractsSync_answers (infos : Option (List ContractInfo)) :
    Answers a now none (a.assessmentContractsSync now infos) := by
  unfold Assessment.assessmentContractsSync
  split
  · exact .same
  · rename_i hsynced
    cases infos with
    | none => exact .same
    | some infos => exact .save h hnow (.contractsSync infos (Option.not_isSome_iff_eq_none.mp hsynced))

theorem contractsListFromEmployer_answers {action : Option ContractsAction}
    (hsynced : action = some .validate → a.contractsSyncedAt.isSome) :
    Answers a now none (a.contractsListFromEmployer now action) := by
  unfold Assessment.contractsListFromEmployer
  cases action with
  | none => exact .refuse id
  | some action =>
      cases action with
      | validate =>
          dsimp only
          split
          · exact .refuse id
          · rename_i hguard
            simp only [not_or, not_not] at hguard
            exact .save h hnow (.validateSelection hguard.1.1 (hsynced rfl) hguard.2)
      | invalidate =>
          dsimp only
          split
          · exact .refuse id
          · rename_i hguard
            exact .save h hnow (.invalidateSelection (not_not.mp hguard).1)

omit hnow in
/-- Without its contracts, a selection is validated against the order of the dates. -/
theorem contractsListFromEmployer_raises (hsynced : a.contractsSyncedAt = none) :
    Raised (a.contractsListFromEmployer now (some .validate)) := by
  have hrow := h.rows.assessment
  have hselection := hrow.contractsSyncedBeforeValidation.eq_none hsynced
  have hsubmitted := hrow.not_submitted_of_selection hselection
  have hawaiting : a.contractsAwaitingJustificationNbForGeiq = 0 := by
    rw [Assessment.contractsAwaitingJustificationNbForGeiq, h.synced hsynced, List.countP_nil]
  unfold Assessment.contractsListFromEmployer
  dsimp only
  rw [if_neg (by simp [hselection, hsubmitted, hawaiting])]
  refine Assessment.raised_save fun hrows => ?_
  exact hrows.assessment.synced_of_selection (Option.some_ne_none now) hsynced

theorem contractsDetailsFromEmployer_answers (pk : Nat) (tab : AssessmentContractDetailsTab)
    (posted : JustificationForm AllowanceJustificationReason) :
    Answers a now none (a.contractsDetailsFromEmployer pk tab posted) := by
  unfold Assessment.contractsDetailsFromEmployer
  split
  · exact .refuse id
  · refine updateContract_answers h fun c hc => ?_
    split
    · split
      · exact Or.inl ⟨_, rfl, id⟩
      · by_cases hselection : a.contractsSelectionValidatedAt.isSome
        · simp only [if_pos hselection]
          split
          · exact Or.inl ⟨_, rfl, id⟩
          · exact Or.inl ⟨_, rfl, id⟩
        · simp only [if_neg hselection]
          split
          · exact Or.inl ⟨_, rfl, id⟩
          · rename_i herrors
            refine Or.inr (Or.inr ⟨_, rfl, .save h hnow ?_⟩)
            have hcontract := h.rows.contracts c (List.mem_of_getElem? hc)
            refine .contractOfGeiq pk c _ (Option.not_isSome_iff_eq_none.mp hselection) hc rfl
              { hcontract with allowanceRequestJustificationSet := Or.inr ?_ }
            exact JustificationForm.of_errors (not_not.mp herrors)
    · exact Or.inr (Or.inl rfl)

theorem contractsToggleFromEmployer_answers (pk : Nat) (newValue : Bool) :
    Answers a now none (a.contractsToggleFromEmployer pk newValue) := by
  unfold Assessment.contractsToggleFromEmployer
  refine updateContract_answers h fun c hc => ?_
  split
  · rename_i hguard
    refine Or.inr (Or.inr ⟨_, rfl, .save h hnow ?_⟩)
    have hmem := List.mem_of_getElem? hc
    refine .contractOfGeiq pk c _ hguard.1 hc rfl
      { h.rows.contracts c hmem with allowanceRequestedOrNotGranted := fun hgranted => ?_ }
    exact (h.granted c hmem hgranted.2).2 (h.rows.assessment.not_submitted_of_selection hguard.1)
  · exact Or.inr (Or.inl rfl)

/-! ## Views of the institutions -/

theorem contractsListFromInstitution_answers (action : Option ContractsAction) :
    Answers a now none (a.contractsListFromInstitution now action) := by
  unfold Assessment.contractsListFromInstitution
  dsimp only
  split
  · exact .refuse id
  · rename_i hsubmitted
    cases action with
    | none => exact .refuse id
    | some action =>
        cases action with
        | validate =>
            dsimp only
            split
            · exact .refuse id
            · rename_i hguard
              simp only [not_or, not_not] at hguard
              exact .save h hnow (.validateGrants hsubmitted hguard.1.1 hguard.1.2 hguard.2)
        | invalidate =>
            dsimp only
            split
            · exact .refuse id
            · rename_i hguard
              exact .save h hnow (.invalidateGrants (not_not.mp hguard).1)

theorem contractsDetailsFromInstitution_answers (pk : Nat) (tab : AssessmentContractDetailsTab)
    (action : Option InstitutionAction) (posted : JustificationForm AllowanceRefusalReason) :
    Answers a now none (a.contractsDetailsFromInstitution pk tab action posted) := by
  unfold Assessment.contractsDetailsFromInstitution
  split
  · exact .refuse id
  · rename_i htab
    simp only [not_or, not_not] at htab
    refine updateContract_answers h fun c hc => ?_
    have hcontract := h.rows.contracts c (List.mem_of_getElem? hc)
    split
    · exact Or.inl ⟨_, rfl, id⟩
    · rename_i hrequested
      split
      · exact Or.inl ⟨_, rfl, id⟩
      · rename_i hgranted
        split
        · exact Or.inl ⟨_, rfl, id⟩
        · split
          · exact Or.inl ⟨_, rfl, id⟩
          · rename_i hgrants
            refine Or.inr (Or.inr ⟨_, rfl, .save h hnow ?_⟩)
            exact .contractOfInstitution pk c _ htab.2 (Option.not_isSome_iff_eq_none.mp hgrants) hc rfl
              { hcontract with allowanceRequestedOrNotGranted := fun hne => nomatch hne.2 } nofun
        · split
          · exact Or.inl ⟨_, rfl, id⟩
          · rename_i hgrants
            refine Or.inr (Or.inr ⟨_, rfl, .save h hnow ?_⟩)
            exact .contractOfInstitution pk c _ htab.2 (Option.not_isSome_iff_eq_none.mp hgrants) hc rfl
              { hcontract with
                allowanceRequestedOrNotGranted := fun hne => hrequested hne.1
                allowanceRefusalSet := Or.inl ⟨rfl, rfl⟩ } fun _ => rfl
        · split
          · exact Or.inl ⟨_, rfl, id⟩
          · rename_i hrefusal
            by_cases hgrants : a.grantsSelectionValidatedAt.isSome
            · simp only [if_pos hgrants]
              split
              · exact Or.inl ⟨_, rfl, id⟩
              · exact Or.inl ⟨_, rfl, id⟩
            · simp only [if_neg hgrants]
              split
              · exact Or.inl ⟨_, rfl, id⟩
              · rename_i herrors
                refine Or.inr (Or.inr ⟨_, rfl, .save h hnow ?_⟩)
                have hform := JustificationForm.of_errors (not_not.mp herrors)
                exact .contractOfInstitution pk c _ htab.2 (Option.not_isSome_iff_eq_none.mp hgrants) hc rfl
                  { hcontract with allowanceRefusalSet := Or.inr hform }
                  fun hg => absurd ⟨not_not.mp hrefusal, hg⟩ hgranted
        · exact Or.inr (Or.inl rfl)
        · exact Or.inr (Or.inl rfl)
        · exact Or.inr (Or.inl rfl)

theorem contractsToggleFromInstitution_answers (pk : Nat) (newValue : Bool) :
    Answers a now none (a.contractsToggleFromInstitution pk newValue) := by
  unfold Assessment.contractsToggleFromInstitution
  split
  · exact .refuse id
  · rename_i hsubmitted
    refine updateContract_answers h fun c hc => ?_
    have hcontract := h.rows.contracts c (List.mem_of_getElem? hc)
    split
    · exact Or.inl ⟨_, rfl, id⟩
    · rename_i hrequested
      split
      · rename_i hguard
        split
        · refine Or.inr (Or.inr ⟨_, rfl, .save h hnow ?_⟩)
          exact .contractOfInstitution pk c _ hsubmitted hguard.1 hc rfl
            { hcontract with
              allowanceRequestedOrNotGranted := fun hne => hrequested hne.1
              allowanceRefusalSet := Or.inl ⟨rfl, rfl⟩ } fun _ => rfl
        · rename_i hreason
          refine Or.inr (Or.inr ⟨_, rfl, .save h hnow ?_⟩)
          refine .contractOfInstitution pk c _ hsubmitted hguard.1 hc rfl
            { hcontract with allowanceRequestedOrNotGranted := fun hne => hrequested hne.1 } fun hvalue => ?_
          exact Option.not_isSome_iff_eq_none.mp fun hsome => hreason ⟨hvalue, hsome⟩
      · exact Or.inr (Or.inl rfl)

theorem assessmentReview_answers (posted : ReviewForm) : Answers a now none (a.assessmentReview now posted) := by
  unfold Assessment.assessmentReview
  split
  · exact .refuse id
  · rename_i hgrants
    by_cases hreviewed : a.reviewedAt.isSome
    · simp only [if_pos hreviewed]
      split
      · exact .refuse id
      · exact .refuse id
    · simp only [if_neg hreviewed]
      split
      · exact .refuse id
      · rename_i herrors
        exact .save h hnow
          (.decision posted hgrants (Option.not_isSome_iff_eq_none.mp hreviewed) (not_not.mp herrors))

/-! ## Reviews and fixes -/

theorem review_answers (user institution : Nat) (hreviewed : a.reviewedAt = none)
    (hmissing : a.missingActionsToReview = []) : Answers a now none (a.review now user institution) := by
  have hrow := h.rows.assessment
  obtain ⟨hgrants, _⟩ := Assessment.missingActionsToReview_eq_nil.mp hmissing
  have hstate : a.state = .submitted := by
    rcases hrow.state_eq (hrow.submitted_of_grants hgrants) (hrow.final_of_not_reviewed hreviewed) with
      ⟨_, hstate⟩ | ⟨hne, _⟩
    · exact hstate
    · exact absurd hreviewed hne
  have hchange : Change a now none _ := .review user institution
    ⟨.review, a.state, .reviewed, user, institution, "", now⟩ (Or.inr ⟨by simp, rfl⟩) hreviewed hmissing
  have hsource : a.state ∈ AssessmentTransition.review.source := List.mem_singleton.mpr hstate
  exact Or.inr ⟨_, hchange, (if_pos hsource).trans (Assessment.save_eq_ok (hchange.rows h hnow))⟩

theorem finalReview_answers (user institution : Nat) (hfinal : a.finalReviewedAt = none)
    (hmissing : a.missingActionsToReview = []) : Answers a now none (a.finalReview now user institution) := by
  have hrow := h.rows.assessment
  obtain ⟨hgrants, _⟩ := Assessment.missingActionsToReview_eq_nil.mp hmissing
  let log : AssessmentTransitionLog := ⟨.finalReview, a.state, .finalReviewed, user, institution, "", now⟩
  have hlog : log.AskForFixTransitionWithComment := Or.inr ⟨by simp [log], rfl⟩
  unfold Assessment.finalReview Assessment.transition
  rcases hrow.state_eq (hrow.submitted_of_grants hgrants) hfinal with ⟨hreviewed, hstate⟩ | ⟨hreviewed, hstate⟩
  · rw [if_pos (by rw [hstate]; exact List.mem_cons_self)]
    simp only [if_pos hreviewed]
    exact .save h hnow (.directFinalReview user institution log hlog hreviewed hmissing)
  · rw [if_pos (by rw [hstate]; exact List.mem_cons_of_mem _ List.mem_cons_self)]
    simp only [if_neg hreviewed]
    exact .save h hnow (.finalReview user institution log hlog hreviewed hfinal)

omit hnow in
/-- A review for which an action is missing is against the order of the dates, or against the workflow. -/
theorem reviews_raise (user institution : Nat) (hmissing : a.missingActionsToReview ≠ []) :
    a.reviewedAt = none ∧ a.finalReviewedAt = none ∧ Raised (a.review now user institution) ∧
      Raised (a.finalReview now user institution) := by
  have hrow := h.rows.assessment
  have hall : ∀ x : Assessment, x.RowsMeetConstraints → x.grantsSelectionValidatedAt = a.grantsSelectionValidatedAt →
      x.decisionValidatedAt = a.decisionValidatedAt → x.reviewedAt ≠ none → False := by
    intro x hx hgrants hdecision hreviewed
    have hd := hx.assessment.decision_of_reviewed hreviewed
    have hg := hx.assessment.grants_of_decision hd
    exact hmissing (Assessment.missingActionsToReview_eq_nil.mpr ⟨hgrants ▸ hg, hdecision ▸ hd⟩)
  have hreviewed : a.reviewedAt = none := Decidable.byContradiction fun hne => hall a h.rows rfl rfl hne
  refine ⟨hreviewed, hrow.final_of_not_reviewed hreviewed, ?_, ?_⟩
  · unfold Assessment.review Assessment.transition
    split
    · exact Assessment.raised_save fun hrows => hall _ hrows rfl rfl nofun
    · exact ⟨_, rfl, trivial⟩
  · unfold Assessment.finalReview Assessment.transition
    split
    · simp only [if_pos hreviewed]
      exact Assessment.raised_save fun hrows => hall _ hrows rfl rfl nofun
    · exact ⟨_, rfl, trivial⟩

theorem askForInstitutionFix_answers (user institution : Nat) {comment : String} (hcomment : comment ≠ "")
    (hreviewed : a.reviewedAt ≠ none) (hfinal : a.finalReviewedAt = none) :
    Answers a now (some .askForInstitutionFix) (a.askForInstitutionFix now user institution comment) := by
  have hrow := h.rows.assessment
  have hsource : a.state ∈ AssessmentTransition.askForInstitutionFix.source := by
    rcases hrow.state_eq (hrow.submitted_of_reviewed hreviewed) hfinal with ⟨hnone, _⟩ | ⟨_, hstate⟩
    · exact absurd hnone hreviewed
    · exact List.mem_singleton.mpr hstate
  unfold Assessment.askForInstitutionFix Assessment.transition
  rw [if_pos hsource]
  exact .save h hnow (.institutionFix _ (Or.inl ⟨Or.inr rfl, hcomment⟩) hreviewed hfinal)

theorem askForGeiqFix_answers (user institution : Nat) {comment : String} (hcomment : comment ≠ "")
    (hsubmitted : a.submittedAt ≠ none) (hfinal : a.finalReviewedAt = none) :
    Answers a now (some .askForGeiqFix) (a.askForGeiqFix now user institution comment) := by
  have hsource : a.state ∈ AssessmentTransition.askForGeiqFix.source := by
    rcases h.rows.assessment.state_eq hsubmitted hfinal with ⟨_, hstate⟩ | ⟨_, hstate⟩
    · rw [hstate]
      exact List.mem_cons_self
    · rw [hstate]
      exact List.mem_cons_of_mem _ List.mem_cons_self
  unfold Assessment.askForGeiqFix Assessment.transition
  rw [if_pos hsource]
  exact .save h hnow (.geiqFix _ (Or.inl ⟨Or.inl rfl, hcomment⟩) hsubmitted hfinal)

omit h hnow in
theorem askForFixComment_of_errors {comment : String} (hcomment : askForFixCommentErrors comment = []) :
    comment ≠ "" := by
  unfold askForFixCommentErrors at hcomment
  split at hcomment
  · cases hcomment
  · assumption

theorem assessmentDetailsForInstitution_answers (user institution : Nat) {kind : InstitutionKind}
    {action : Option InstitutionAction} (comment : String)
    (hreview : action = some .review → a.missingActionsToReview = [])
    (hfix : action = some .askForInstitutionFix → kind = .dreetsGeiq) :
    Answers a now (Operation.assessmentDetailsForInstitution action comment).fix
      (a.assessmentDetailsForInstitution now user institution kind action comment) := by
  unfold Assessment.assessmentDetailsForInstitution
  cases action with
  | none => exact .refuse id
  | some action =>
      cases action with
      | review =>
          dsimp only [Operation.fix]
          split
          · split
            · rename_i hreviewed
              exact review_answers h hnow user institution hreviewed (hreview rfl)
            · exact .refuse id
          · split
            · rename_i hfinal
              exact finalReview_answers h hnow user institution hfinal (hreview rfl)
            · exact .refuse id
      | askForInstitutionFix =>
          dsimp only [Operation.fix]
          rw [if_neg (not_not.mpr (hfix rfl))]
          split
          · exact .refuse id
          · rename_i hcomment
            split
            · exact .refuse id
            · rename_i hfinal
              split
              · exact .refuse id
              · split
                · exact .refuse id
                · rename_i hreviewed
                  exact askForInstitutionFix_answers h hnow user institution
                    (askForFixComment_of_errors (not_not.mp hcomment)) hreviewed
                    (Option.not_isSome_iff_eq_none.mp hfinal)
      | askForGeiqFix =>
          dsimp only [Operation.fix]
          split
          · exact .refuse id
          · rename_i hcomment
            split
            · exact .refuse id
            · rename_i hfinal
              split
              · exact .refuse id
              · rename_i hsubmitted
                exact askForGeiqFix_answers h hnow user institution
                  (askForFixComment_of_errors (not_not.mp hcomment)) hsubmitted
                  (Option.not_isSome_iff_eq_none.mp hfinal)
      | refuseAllowance => exact .same
      | grantAllowance => exact .same
      | allowanceRefusalJustification => exact .same

/-! ## Requests -/

omit h hnow

theorem forGeiq_answers {requester : Requester} {view : Nat → Except Failure Assessment}
    (hview : ∀ user, Answers a now fix (view user)) : Answers a now fix (a.forGeiq requester view) := by
  unfold Assessment.forGeiq
  split
  · split
    · split
      · exact hview _
      · exact .refuse id
    · exact .refuse id
  · exact .refuse id

theorem forInstitution_answers {requester : Requester}
    {view : Nat → Nat → InstitutionKind → Except Failure Assessment}
    (hview : ∀ user institution kind, Answers a now fix (view user institution kind)) :
    Answers a now fix (a.forInstitution requester view) := by
  unfold Assessment.forInstitution
  split
  · split
    · exact hview _ _ _
    · exact .refuse id
  · exact .refuse id

theorem forBoth_answers {requester : Requester} {fromEmployer : Nat → Except Failure Assessment}
    {fromInstitution : Nat → Nat → InstitutionKind → Except Failure Assessment}
    (hemployer : ∀ user, Answers a now fix (fromEmployer user))
    (hinstitution : ∀ user institution kind, Answers a now fix (fromInstitution user institution kind)) :
    Answers a now fix (a.forBoth requester fromEmployer fromInstitution) := by
  unfold Assessment.forBoth
  split
  · exact forInstitution_answers hinstitution
  · exact forGeiq_answers hemployer

end Itou.GeiqAssessments
