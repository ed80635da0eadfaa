import Itou.SiaeEvaluations.Lemmas.Outcome

/-!
# Requests that raise, and submissions

Under the invariant, only `transition_to_adversarial_phase` and `close` can raise, each for one reason.

All the proofs are submitted, and the dates of those that are reviewed are kept, exactly when each review is the review
of a proof that was submitted.
-/

namespace Itou.SiaeEvaluations

open Itou.Lib

/-! ## Requests that raise -/

variable {siae siae' : EvaluatedSiae} {endedAt : Option DateTime} {now clock : DateTime} {isValid : List Nat → Bool}
  {c c' : EvaluationCampaign} {failure : Failure}

theorem updateAt_not_raised {α : Type} {l : List α} {i : Nat} {f : α → Except Failure α}
    (hf : ∀ a ∈ l, ∀ failure, f a = .error failure → ¬ failure.Raised)
    (h : updateAt l i f = .error failure) : ¬ failure.Raised := by
  rcases updateAt_eq_error h with rfl | ⟨a, ha, h⟩
  · exact id
  · exact hf a (List.mem_of_getElem? ha) failure h

namespace EvaluatedSiae

theorem updateCriteria_not_raised {j k : Nat}
    {f : EvaluatedAdministrativeCriteria → Except Failure EvaluatedAdministrativeCriteria}
    (hf : ∀ x failure, f x = .error failure → ¬ failure.Raised)
    (h : siae.updateCriteria j k f = .error failure) : ¬ failure.Raised := by
  refine updateAt_not_raised (fun a _ failure ha => ?_) (map_eq_error.mp h)
  exact updateAt_not_raised (fun x _ => hf x) (map_eq_error.mp ha)

/-- `can_review` lets a review pass only when `review` has a branch for it, and the dates stay in order. -/
theorem Inv.review_ok (h : siae.Inv endedAt clock) (hnow : clock ≤ now) (hreview : siae.CanReview endedAt) :
    ∃ siae', siae.review endedAt now = .ok siae' := by
  have hboth : FinalReviewedAtOnlyAfterReviewedAt { siae with reviewedAt := some now, finalReviewedAt := some now } :=
    fun final hf => ⟨now, rfl, (Option.some.inj hf).le⟩
  unfold EvaluatedSiae.review
  unfold CanReview at hreview
  split at hreview
  · rename_i hnone
    have hfinal : siae.finalReviewedAt = none :=
      Decidable.byContradiction fun hne => h.reviewed_of_final hne hnone
    rcases hreview with hstate | hstate <;> simp only [hstate]
    · exact ⟨_, save_eq_ok.mpr ⟨hboth, rfl⟩⟩
    · exact ⟨_, save_eq_ok.mpr ⟨fun final hf => (nomatch hfinal ▸ hf), rfl⟩⟩
  · rename_i reviewedAt hreviewed
    simp only [hreview.2.1]
    have hle := h.reviewedAt reviewedAt hreviewed
    refine ⟨_, save_eq_ok.mpr ⟨fun final hf => ⟨reviewedAt, hreviewed, ?_⟩, rfl⟩⟩
    exact (le_trans hle hnow).trans (Option.some.inj hf).le

theorem Inv.validation_ok (h : siae.Inv endedAt clock) (hnow : clock ≤ now) :
    ∃ siae', siae.institutionEvaluatedSiaeValidation endedAt now = .ok siae' := by
  unfold EvaluatedSiae.institutionEvaluatedSiaeValidation
  split
  · rename_i hreview
    exact h.review_ok hnow hreview
  · exact ⟨siae, rfl⟩

/-! ## The campaign moves on -/

/-- The state of a reviewed SIAE has a branch in `transition_to_adversarial_phase`. -/
theorem Inv.reviewStands_iff (h : siae.Inv endedAt clock) :
    siae.ReviewStands endedAt ↔
      (siae.reviewedAt.isSome → siae.state endedAt = .accepted ∨ siae.state endedAt = .adversarialStage) := by
  refine forall_congr' fun hreviewed => ?_
  by_cases hfinal : siae.EvaluationIsFinal endedAt
  · simp only [hfinal, not_true_eq_false, forall_const, false_imp_iff, and_true]
    refine ⟨Or.inl, fun hstate => hstate.resolve_right fun hadversarial => ?_⟩
    rcases state_eq_or_of_final h hfinal with hs | hs
    · exact absurd (hs.symm.trans hadversarial) nofun
    · exact absurd (hs.symm.trans hadversarial) nofun
  · have hended : endedAt = none :=
      Option.not_isSome_iff_eq_none.mp fun hsome => hfinal (Or.inr hsome)
    have hnone : siae.finalState = none := by
      have hstate := h.finalState
      rw [hended] at hstate
      exact hstate
    simp only [hfinal, not_false_eq_true, forall_const, false_imp_iff, true_and]
    cases hs : siae.stateFromApplications with
    | adversarialStage => exact absurd hs stateFromApplications_ne_adversarialStage
    | _ =>
        simp only [state, hnone, hs, hfinal, hreviewed, not_false_eq_true, and_self, if_true, if_false, reduceCtorEq,
          or_false, or_true, or_self]

theorem toAdversarialPhase_eq_error (h : siae.toAdversarialPhase endedAt now = .error failure) :
    failure = .valueError ∧ siae.reviewedAt.isSome ∧ siae.state endedAt ≠ .accepted ∧
        siae.state endedAt ≠ .adversarialStage ∨
      failure = .assertionError ∧ siae.reviewedAt = none ∧ siae.state endedAt = .adversarialStage := by
  unfold EvaluatedSiae.toAdversarialPhase at h
  split at h
  · rename_i hreviewed
    split at h
    · cases h
    · cases h
    · rename_i hnotAccepted hnotAdversarial
      cases h
      exact Or.inl ⟨rfl, hreviewed, hnotAccepted, hnotAdversarial⟩
  · rename_i hreviewed
    split at h
    · cases h
    · cases h
    · cases h
    · cases h
    · cases h
    · rename_i hstate
      cases h
      exact Or.inr ⟨rfl, Option.not_isSome_iff_eq_none.mp hreviewed, hstate⟩

/-- `ADVERSARIAL_STAGE` needs a `reviewed_at`. -/
theorem Inv.state_ne_adversarialStage (h : siae.Inv endedAt clock) (hnone : siae.reviewedAt = none) :
    siae.state endedAt ≠ .adversarialStage := by
  intro hstate
  by_cases hfinal : siae.EvaluationIsFinal endedAt
  · rcases state_eq_or_of_final h hfinal with hs | hs
    · exact absurd (hs.symm.trans hstate) nofun
    · exact absurd (hs.symm.trans hstate) nofun
  · have hended : endedAt = none :=
      Option.not_isSome_iff_eq_none.mp fun hsome => hfinal (Or.inr hsome)
    have hfinalState : siae.finalState = none := by
      have hs := h.finalState
      rw [hended] at hs
      exact hs
    cases hs : siae.stateFromApplications with
    | adversarialStage => exact stateFromApplications_ne_adversarialStage hs
    | _ =>
        simp only [state, hfinalState, hs, hfinal, hnone, Option.isSome_none, Bool.false_eq_true, false_and,
          if_false, reduceCtorEq] at hstate

theorem Inv.toAdversarialPhase_ok_iff (h : siae.Inv endedAt clock) :
    (∃ siae', siae.toAdversarialPhase endedAt now = .ok siae') ↔ siae.ReviewStands endedAt := by
  rw [h.reviewStands_iff]
  constructor
  · rintro ⟨siae', hok⟩ hreviewed
    unfold EvaluatedSiae.toAdversarialPhase at hok
    rw [if_pos hreviewed] at hok
    split at hok
    · rename_i hstate
      exact Or.inl hstate
    · rename_i hstate
      exact Or.inr hstate
    · cases hok
  · intro hstate
    cases hresult : siae.toAdversarialPhase endedAt now with
    | ok siae' => exact ⟨siae', rfl⟩
    | error failure =>
        rcases toAdversarialPhase_eq_error hresult with
          ⟨_, hreviewed, haccepted, hadversarial⟩ | ⟨_, hnone, hadversarial⟩
        · rcases hstate hreviewed with hs | hs
          · exact absurd hs haccepted
          · exact absurd hs hadversarial
        · exact absurd hadversarial (h.state_ne_adversarialStage hnone)

theorem Inv.close_ok_iff (h : siae.Inv none clock) (hnow : clock ≤ now) :
    (∃ siae', (siae.close now).save = .ok siae') ↔ siae.IsValidated := by
  have hsave : (∃ siae', (siae.close now).save = .ok siae') ↔
      (siae.close now).FinalReviewedAtOnlyAfterReviewedAt :=
    ⟨fun ⟨_, hok⟩ => (save_eq_ok.mp hok).1, fun hdates => ⟨_, save_eq_ok.mpr ⟨hdates, rfl⟩⟩⟩
  rw [hsave]
  unfold EvaluatedSiae.close
  dsimp only
  split
  · rename_i hcond
    obtain ⟨hnotified, hfinal, hstate⟩ := hcond
    constructor
    · intro hdates _ _
      obtain ⟨reviewed, hr, _⟩ := hdates now rfl
      exact Option.isSome_iff_exists.mpr ⟨reviewed, hr⟩
    · intro hvalidated final hf
      obtain ⟨reviewed, hr⟩ := Option.isSome_iff_exists.mp (hvalidated hnotified hstate)
      exact ⟨reviewed, hr, (le_trans (h.reviewedAt reviewed hr) hnow).trans (Option.some.inj hf).le⟩
  · rename_i hcond
    refine ⟨fun _ hnotified hstate => ?_, fun _ => h.dates⟩
    have hfinal : siae.finalReviewedAt ≠ none := fun hnone => hcond ⟨hnotified, hnone, hstate⟩
    exact Option.isSome_iff_ne_none.mpr (h.reviewed_of_final hfinal)

theorem save_eq_error (h : siae.save = .error failure) : failure = .integrityError := by
  unfold save at h
  split at h
  · cases h
  · cases h
    rfl

end EvaluatedSiae

namespace EvaluationCampaign

theorem onSiae_not_raised {i : Nat} {f : EvaluatedSiae → Except Failure EvaluatedSiae}
    (hf : ∀ siae ∈ c.evaluatedSiaes, ∀ failure, f siae = .error failure → ¬ failure.Raised)
    (h : c.onSiae i f = .error failure) : ¬ failure.Raised := by
  unfold onSiae at h
  split at h
  · cases h
    exact id
  · exact updateAt_not_raised hf (map_eq_error.mp h)

theorem raised_of_transition (h : c.transitionToAdversarialPhase now = .error failure) : failure.Raised := by
  rcases bind_eq_error.mp h with h | ⟨siaes, _, h⟩
  · obtain ⟨siae, _, h⟩ := exists_of_mapM_eq_error h
    rcases EvaluatedSiae.toAdversarialPhase_eq_error h with ⟨rfl, _⟩ | ⟨rfl, _⟩
    · trivial
    · trivial
  · rcases bind_eq_error.mp h with h | ⟨saved, _, h⟩
    · obtain ⟨siae, _, h⟩ := exists_of_mapM_eq_error h
      rw [EvaluatedSiae.save_eq_error h]
      trivial
    · cases h

theorem raised_of_close (h : c.close now = .error failure) : failure.Raised := by
  unfold close at h
  split at h
  · cases h
  · rcases bind_eq_error.mp h with h | ⟨saved, _, h⟩
    · obtain ⟨siae, _, h⟩ := exists_of_mapM_eq_error h
      rw [EvaluatedSiae.save_eq_error h]
      trivial
    · cases h

theorem Inv.transition_ok_iff (h : c.Inv clock) (hnow : clock ≤ now) :
    (∃ c', c.transitionToAdversarialPhase now = .ok c') ↔
      ∀ siae ∈ c.evaluatedSiaes, siae.ReviewStands c.endedAt := by
  constructor
  · rintro ⟨c', hok⟩ siae hsiae
    obtain ⟨siaes, hsiaes, _⟩ := transitionToAdversarialPhase_eq_ok hok
    obtain ⟨i, hi⟩ := List.getElem?_of_mem hsiae
    obtain ⟨siae', _, hf⟩ := getElem?_of_mapM_eq_ok hsiaes hi
    exact (h siae hsiae).toAdversarialPhase_ok_iff.mp ⟨siae', hf⟩
  · intro hstands
    cases hsiaes : c.evaluatedSiaes.mapM fun siae => siae.toAdversarialPhase c.endedAt now with
    | error failure =>
        obtain ⟨siae, hsiae, hf⟩ := exists_of_mapM_eq_error hsiaes
        obtain ⟨siae', hok⟩ : ∃ siae', siae.toAdversarialPhase c.endedAt now = .ok siae' :=
          (h siae hsiae).toAdversarialPhase_ok_iff.mpr (hstands siae hsiae)
        exact absurd (hf.symm.trans hok) nofun
    | ok siaes =>
        cases hsaved : siaes.mapM EvaluatedSiae.save with
        | error failure =>
            obtain ⟨siae', hsiae', hsave⟩ := exists_of_mapM_eq_error hsaved
            obtain ⟨siae, hsiae, hf⟩ := exists_of_mem_mapM hsiaes hsiae'
            have hdates := ((h siae hsiae).toAdversarialPhase hnow hf).dates
            exact absurd (hsave.symm.trans (EvaluatedSiae.save_eq_ok.mpr ⟨hdates, rfl⟩)) nofun
        | ok saved => exact ⟨_, bind_eq_ok.mpr ⟨siaes, hsiaes, bind_eq_ok.mpr ⟨saved, hsaved, rfl⟩⟩⟩

theorem Inv.close_ok_iff (h : c.Inv clock) (hnow : clock ≤ now) :
    (∃ c', c.close now = .ok c') ↔ (c.endedAt = none → ∀ siae ∈ c.evaluatedSiaes, siae.IsValidated) := by
  constructor
  · rintro ⟨c', hok⟩ hnone siae hsiae
    rcases close_eq_ok hok with ⟨_, hended⟩ | ⟨_, saved, hsaved, _⟩
    · exact absurd hnone hended
    · obtain ⟨i, hi⟩ := List.getElem?_of_mem hsiae
      obtain ⟨siae', _, hf⟩ := getElem?_of_mapM_eq_ok hsaved hi
      exact (EvaluatedSiae.Inv.close_ok_iff (hnone ▸ h siae hsiae) hnow).mp ⟨siae', hf⟩
  · intro hvalidated
    unfold close
    split
    · exact ⟨c, rfl⟩
    · rename_i hended
      have hnone := Option.not_isSome_iff_eq_none.mp hended
      cases hsaved : c.evaluatedSiaes.mapM fun siae => (siae.close now).save with
      | error failure =>
          obtain ⟨siae, hsiae, hf⟩ := exists_of_mapM_eq_error hsaved
          obtain ⟨siae', hok⟩ :=
            (EvaluatedSiae.Inv.close_ok_iff (hnone ▸ h siae hsiae) hnow).mpr (hvalidated hnone siae hsiae)
          exact absurd (hf.symm.trans hok) nofun
      | ok saved => exact ⟨_, bind_eq_ok.mpr ⟨saved, rfl, rfl⟩⟩

end EvaluationCampaign

/-! ## What a submission does to the proofs -/

/-- What a submission does to a criterion. -/
def EvaluatedAdministrativeCriteria.submit (c : EvaluatedAdministrativeCriteria) (now : DateTime) :
    EvaluatedAdministrativeCriteria :=
  if c.reviewState = .pending then { c with submittedAt := some now } else c

/-- An application is in the state of one of its criteria. -/
theorem EvaluatedJobApplication.exists_uploaded {a : EvaluatedJobApplication} (h : a.computeState = .uploaded) :
    ∃ c ∈ a.evaluatedAdministrativeCriteria, c.state = .uploaded := by
  rcases maxPriority_spec EvaluatedJobApplicationsState.statesPriority .pending
    (a.evaluatedAdministrativeCriteria.map EvaluatedAdministrativeCriteria.state) with ⟨_, hmax⟩ | ⟨hmem, _⟩
  · cases h.symm.trans hmax
  · change a.computeState ∈ _ at hmem
    rw [h] at hmem
    exact List.mem_map.mp hmem

theorem EvaluatedAdministrativeCriteria.of_uploaded {c : EvaluatedAdministrativeCriteria} (h : c.state = .uploaded) :
    c.criteriaCertified = false ∧ c.proof ≠ none ∧ c.submittedAt = none := by
  unfold EvaluatedAdministrativeCriteria.state at h
  split at h
  · cases h
  · rename_i hcertified
    split at h
    · cases h
    · rename_i hproof
      split at h
      · rename_i hsubmitted
        exact ⟨Bool.eq_false_iff.mpr hcertified, hproof, hsubmitted⟩
      · cases hreview : c.reviewState <;> rw [hreview] at h <;> cases h

namespace EvaluatedSiae

/-- An SIAE that can submit has a proof to submit. -/
theorem exists_uploaded (hnone : siae.finalState = none) (h : siae.state none = .submittable) :
    ∃ c ∈ siae.criteria, c.state = .uploaded := by
  have hstate : siae.stateFromApplications = .submittable := by
    simp only [state, hnone] at h
    cases hs : siae.stateFromApplications with
    | submittable => rfl
    | pending | submitted => rw [hs] at h; dsimp only at h; split at h <;> cases h
    | accepted | refused | adversarialStage => rw [hs] at h; dsimp only at h; split at h <;> cases h
  rcases maxPriority_spec EvaluatedSiaeState.statesPriority .pending
    (siae.evaluatedJobApplications.map fun a => a.computeState.siaeState) with ⟨_, hmax⟩ | ⟨hmem, _⟩
  · cases hstate.symm.trans hmax
  · change siae.stateFromApplications ∈ _ at hmem
    rw [hstate] at hmem
    obtain ⟨a, ha, hsubmittable⟩ := List.mem_map.mp hmem
    have huploaded : a.computeState = .uploaded := by
      cases hcompute : a.computeState <;> rw [hcompute] at hsubmittable <;> first | rfl | cases hsubmittable
    obtain ⟨c, hc, hstate⟩ := EvaluatedJobApplication.exists_uploaded huploaded
    exact ⟨c, mem_criteria.mpr ⟨a, ha, hc⟩, hstate⟩

theorem criteria_submitCriteria : (siae.submitCriteria now).criteria = siae.criteria.map (·.submit now) := by
  rw [criteria, criteria, submitCriteria, List.flatMap_map, List.map_flatMap]
  rfl

/-- The submission, as the view writes it. -/
theorem submits_iff (hnone : siae.finalState = none) (hreviewed : ∀ reviewedAt ∈ siae.reviewedAt, reviewedAt ≤ now) :
    siae.Submits { siae.submitCriteria now with submissionFreezedAt := some now } ↔ siae.ReviewsSubmitted := by
  have hcriteria : criteria { siae.submitCriteria now with submissionFreezedAt := some now } =
      siae.criteria.map (·.submit now) := criteria_submitCriteria
  constructor
  · intro h c hc
    refine ⟨fun hcertified hproof hsubmitted => ?_, fun hpending submittedAt hs reviewedAt hr hlt => ?_⟩
    · -- Only a criterion whose review is pending is submitted.
      by_contra hreview
      have hsame : c.submit now = c := if_neg hreview
      have hmem : c ∈ criteria { siae.submitCriteria now with submissionFreezedAt := some now } := by
        rw [hcriteria]
        exact List.mem_map.mpr ⟨c, hc, hsame⟩
      exact h.submitted c hmem hcertified hproof hsubmitted
    · have hkept := h.kept (c, c.submit now) (by
        rw [hcriteria, ← List.map_prod_left_eq_zip]
        exact List.mem_map.mpr ⟨c, hc, rfl⟩) (Or.inr ⟨submittedAt, hs, reviewedAt, hr, hlt⟩)
      have hnow : (c.submit now).submittedAt = some now := by
        rw [EvaluatedAdministrativeCriteria.submit, if_pos hpending]
      rw [hnow, Option.mem_def.mp hs] at hkept
      cases hkept
      exact absurd hlt (not_lt_of_ge (hreviewed reviewedAt hr))
  · intro h
    have hsubmitted : ∀ c ∈ criteria { siae.submitCriteria now with submissionFreezedAt := some now },
        c.criteriaCertified = false → c.proof ≠ none → c.submittedAt ≠ none := by
      rw [hcriteria]
      intro d hd
      obtain ⟨c, hc, rfl⟩ := List.mem_map.mp hd
      by_cases hpending : c.reviewState = .pending
      · intro _ _
        rw [EvaluatedAdministrativeCriteria.submit, if_pos hpending]
        exact Option.some_ne_none now
      · rw [EvaluatedAdministrativeCriteria.submit, if_neg hpending]
        exact fun hcertified hproof hnot => hpending ((h c hc).1 hcertified hproof hnot)
    refine ⟨hsubmitted, fun hstate => ?_, ?_, ?_⟩
    · have hexists : ∃ c ∈ criteria { siae.submitCriteria now with submissionFreezedAt := some now },
          c.state = .uploaded := exists_uploaded hnone hstate
      obtain ⟨c, hc, huploaded⟩ := hexists
      obtain ⟨hcertified, hproof, hnot⟩ := EvaluatedAdministrativeCriteria.of_uploaded huploaded
      exact hsubmitted c hc hcertified hproof hnot
    · rw [hcriteria, List.length_map]
    · rw [hcriteria, ← List.map_prod_left_eq_zip]
      intro pair hpair halready
      obtain ⟨c, hc, rfl⟩ := List.mem_map.mp hpair
      by_cases hpending : c.reviewState = .pending
      · rcases halready with hreview | ⟨submittedAt, hs, reviewedAt, hr, hlt⟩
        · exact absurd hpending hreview
        · exact absurd hlt ((h c hc).2 hpending submittedAt hs reviewedAt hr)
      · change (c.submit now).submittedAt = c.submittedAt
        rw [EvaluatedAdministrativeCriteria.submit, if_neg hpending]

end EvaluatedSiae

/-! ## A submission in a campaign -/

theorem EvaluationCampaign.exec_siaeSubmitProofs {isValid : List Nat → Bool} {c : EvaluationCampaign} {i : Nat}
    (hended : c.endedAt = none) (hsiae : c.evaluatedSiaes[i]? = some siae) (hsubmit : siae.CanSubmit none) :
    (c.exec isValid now (.siaeSubmitProofs i)).toOption.bind (·.evaluatedSiaes[i]?) =
      some { siae.submitCriteria now with submissionFreezedAt := some now } := by
  have hok : siae.siaeSubmitProofs c.endedAt now = .ok { siae.submitCriteria now with submissionFreezedAt := some now } := by
    rw [hended]
    exact if_pos hsubmit
  have hexec : c.exec isValid now (.siaeSubmitProofs i) = .ok _ :=
    onSiae_eq_ok.mpr ⟨hended, siae, _, hsiae, hok, rfl⟩
  rw [hexec]
  exact List.getElem?_set_self (List.getElem?_eq_some_iff.mp hsiae).1

/-- A submission in a reachable state. -/
theorem EvaluationCampaign.Inv.submits_iff {isValid : List Nat → Bool} {c : EvaluationCampaign} {i : Nat}
    (h : c.Inv clock) (hnow : clock ≤ now) (hended : c.endedAt = none) (hsiae : c.evaluatedSiaes[i]? = some siae)
    (hsubmit : siae.CanSubmit none) :
    (∃ siae' ∈ (c.exec isValid now (.siaeSubmitProofs i)).toOption.bind (·.evaluatedSiaes[i]?), siae.Submits siae') ↔
      siae.ReviewsSubmitted := by
  have hinv := h.getElem? hsiae
  rw [hended] at hinv
  have hreviewed : ∀ reviewedAt ∈ siae.reviewedAt, reviewedAt ≤ now :=
    fun reviewedAt hr => le_trans (hinv.reviewedAt reviewedAt hr) hnow
  rw [exec_siaeSubmitProofs hended hsiae hsubmit, ← EvaluatedSiae.submits_iff hinv.finalState hreviewed]
  constructor
  · rintro ⟨siae', hsiae', hsubmits⟩
    cases Option.some.inj hsiae'
    exact hsubmits
  · exact fun hsubmits => ⟨_, rfl, hsubmits⟩

end Itou.SiaeEvaluations
