import Itou.SiaeEvaluations.Lemmas.Invariant

/-!
# The outcome of an evaluation

What each request does to the invariant of a campaign, and to the state of an SIAE whose evaluation is final.
-/

namespace Itou.SiaeEvaluations

open Itou.Lib

variable {siae siae' : EvaluatedSiae} {endedAt : Option DateTime} {now clock : DateTime} {isValid : List Nat → Bool}
  {c c' : EvaluationCampaign} {action : Action}

/-! ## Start -/

theorem certified_populateSiae {jobApplications : List Selected} {x : EvaluatedAdministrativeCriteria} (setAt : DateTime)
    (hx : ∃ a ∈ jobApplications.map (populateJobApplication setAt), x ∈ a.evaluatedAdministrativeCriteria) :
    x.reviewState = .accepted ∧ x.submittedAt ≠ none := by
  obtain ⟨a, ha, hx⟩ := hx
  obtain ⟨selected, _, rfl⟩ := List.mem_map.mp ha
  obtain ⟨key, _, rfl⟩ := List.mem_map.mp hx
  exact ⟨rfl, nofun⟩

theorem inv_populateSiae (setAt : DateTime) (jobApplications : List Selected) :
    (populateSiae setAt jobApplications).Inv none setAt := by
  unfold populateSiae
  dsimp only
  split
  · refine ⟨fun final hf => ⟨setAt, rfl, (Option.some.inj hf).le⟩, fun reviewed hr => (Option.some.inj hr).ge,
      fun x hx _ => certified_populateSiae setAt (EvaluatedSiae.mem_criteria.mp hx), rfl⟩
  · exact ⟨nofun, nofun, fun x hx _ => certified_populateSiae setAt (EvaluatedSiae.mem_criteria.mp hx), rfl⟩

/-! ## The invariant of a campaign -/

namespace EvaluationCampaign

def Inv (clock : DateTime) (c : EvaluationCampaign) : Prop := ∀ siae ∈ c.evaluatedSiaes, siae.Inv c.endedAt clock

theorem Inv.mono (h : c.Inv clock) (hnow : clock ≤ now) : c.Inv now := fun siae hsiae => (h siae hsiae).mono hnow

theorem Inv.getElem? (h : c.Inv clock) {i : Nat} (hsiae : c.evaluatedSiaes[i]? = some siae) :
    siae.Inv c.endedAt clock :=
  h siae (List.mem_of_getElem? hsiae)

theorem onSiae_eq_ok {i : Nat} {f : EvaluatedSiae → Except Failure EvaluatedSiae} :
    c.onSiae i f = .ok c' ↔ c.endedAt = none ∧ ∃ siae siae', c.evaluatedSiaes[i]? = some siae ∧ f siae = .ok siae' ∧
      c' = { c with evaluatedSiaes := c.evaluatedSiaes.set i siae' } := by
  unfold onSiae
  split
  · rename_i hended
    exact ⟨nofun, fun h => absurd hended (h.1 ▸ Bool.false_ne_true)⟩
  · rename_i hended
    rw [Bool.not_eq_true, Option.isSome_eq_false_iff, Option.isNone_iff_eq_none] at hended
    simp only [map_eq_ok, updateAt_eq_ok, hended, true_and]
    constructor
    · rintro ⟨_, ⟨siae, siae', hsiae, hf, rfl⟩, rfl⟩
      exact ⟨siae, siae', hsiae, hf, rfl⟩
    · rintro ⟨siae, siae', hsiae, hf, rfl⟩
      exact ⟨_, ⟨siae, siae', hsiae, hf, rfl⟩, rfl⟩

theorem Inv.set (h : c.Inv clock) (hnow : clock ≤ now) {i : Nat} (hsiae' : siae'.Inv c.endedAt now) :
    Inv now { c with evaluatedSiaes := c.evaluatedSiaes.set i siae' } := by
  intro x hx
  rcases List.mem_or_eq_of_mem_set hx with hx | rfl
  · exact (h x hx).mono hnow
  · exact hsiae'

theorem Inv.onSiae (h : c.Inv clock) (hnow : clock ≤ now) {i : Nat}
    {f : EvaluatedSiae → Except Failure EvaluatedSiae}
    (hf : ∀ siae siae', siae.Inv c.endedAt clock → f siae = .ok siae' → siae'.Inv c.endedAt now)
    (hok : c.onSiae i f = .ok c') : c'.Inv now := by
  obtain ⟨_, siae, siae', hsiae, hfsiae, rfl⟩ := onSiae_eq_ok.mp hok
  exact h.set hnow (hf siae siae' (h.getElem? hsiae) hfsiae)

/-- What `transition_to_adversarial_phase` does to each SIAE. -/
theorem transitionToAdversarialPhase_eq_ok (hok : c.transitionToAdversarialPhase now = .ok c') :
    ∃ siaes, c.evaluatedSiaes.mapM (fun siae => siae.toAdversarialPhase c.endedAt now) = .ok siaes ∧
      c' = { c with evaluatedSiaes := siaes.map fun siae => { siae with submissionFreezedAt := none } } := by
  obtain ⟨siaes, hsiaes, hok⟩ := bind_eq_ok.mp hok
  obtain ⟨saved, hsaved, hok⟩ := bind_eq_ok.mp hok
  cases hok
  have hsame : List.Forall₂ Eq siaes saved :=
    (mapM_eq_ok.mp hsaved).imp fun _ _ hsave => (EvaluatedSiae.save_eq_ok.mp hsave).2.symm
  rw [List.forall₂_eq_eq_eq] at hsame
  exact ⟨siaes, hsiaes, hsame ▸ rfl⟩

theorem close_eq_ok (hok : c.close now = .ok c') :
    c' = c ∧ c.endedAt ≠ none ∨ c.endedAt = none ∧ ∃ saved,
      c.evaluatedSiaes.mapM (fun siae => (siae.close now).save) = .ok saved ∧
        c' = ⟨some now, saved⟩ := by
  unfold close at hok
  split at hok
  · rename_i hended
    cases hok
    exact Or.inl ⟨rfl, Option.isSome_iff_ne_none.mp hended⟩
  · rename_i hended
    obtain ⟨saved, hsaved, hok⟩ := bind_eq_ok.mp hok
    cases hok
    exact Or.inr ⟨Option.not_isSome_iff_eq_none.mp hended, saved, hsaved, rfl⟩

theorem Inv.exec (h : c.Inv clock) (hnow : clock ≤ now) (hok : c.exec isValid now action = .ok c') : c'.Inv now := by
  cases action with
  | institutionEvaluatedAdministrativeCriteria i j k action =>
      exact h.onSiae hnow (fun _ _ hs hf => (hs.institutionEvaluatedAdministrativeCriteria hf).mono hnow) hok
  | institutionEvaluatedSiaeValidation i =>
      exact h.onSiae hnow (fun _ _ hs hf => hs.institutionEvaluatedSiaeValidation hnow hf) hok
  | institutionEvaluatedSiaeNotify i =>
      obtain ⟨siaes, hsiaes, rfl⟩ := map_eq_ok.mp hok
      obtain ⟨siae, siae', hsiae, hf, rfl⟩ := updateAt_eq_ok.mp hsiaes
      exact h.set hnow (((h.getElem? hsiae).institutionEvaluatedSiaeNotify hf).mono hnow)
  | siaeSelectCriteria i j checked =>
      exact h.onSiae hnow (fun _ _ hs hf => (hs.siaeSelectCriteria hf).mono hnow) hok
  | siaeUploadDoc i j k file =>
      exact h.onSiae hnow (fun _ _ hs hf => (hs.siaeUploadDoc hf).mono hnow) hok
  | siaeSubmitProofs i => exact h.onSiae hnow (fun _ _ hs hf => (hs.siaeSubmitProofs hf).mono hnow) hok
  | freeze =>
      cases hok
      intro x hx
      obtain ⟨siae, hsiae, rfl⟩ := List.mem_map.mp hx
      exact (h siae hsiae).freeze.mono hnow
  | transitionToAdversarialPhase =>
      obtain ⟨siaes, hsiaes, rfl⟩ := transitionToAdversarialPhase_eq_ok hok
      intro x hx
      obtain ⟨siae', hsiae', rfl⟩ := List.mem_map.mp hx
      obtain ⟨siae, hsiae, hf⟩ := exists_of_mem_mapM hsiaes hsiae'
      have hinv := (h siae hsiae).toAdversarialPhase hnow hf
      exact hinv.of_sameReview ⟨rfl, rfl, rfl⟩ hinv.certified
  | close =>
      rcases close_eq_ok hok with ⟨rfl, _⟩ | ⟨hnone, saved, hsaved, rfl⟩
      · exact h.mono hnow
      · intro x hx
        obtain ⟨siae, hsiae, hf⟩ := exists_of_mem_mapM hsaved hx
        exact (hnone ▸ h siae hsiae).close hnow hf

end EvaluationCampaign

/-! ## A final evaluation -/

namespace EvaluatedSiae

/-- The evaluation, if it is final, is final after the request and has the same outcome. -/
def KeepsOutcome (endedAt endedAt' : Option DateTime) (siae siae' : EvaluatedSiae) : Prop :=
  siae.EvaluationIsFinal endedAt →
    siae'.EvaluationIsFinal endedAt' ∧ siae'.state endedAt' = siae.state endedAt

theorem Inv.reviewed_of_isFinal (h : siae.Inv none clock) (hfinal : siae.EvaluationIsFinal none) :
    siae.finalReviewedAt ≠ none ∧ siae.reviewedAt ≠ none := by
  rcases hfinal with hfinal | hended
  · have hne := Option.isSome_iff_ne_none.mp hfinal
    exact ⟨hne, h.reviewed_of_final hne⟩
  · exact absurd hended Bool.false_ne_true

theorem KeepsOutcome.of_sameReview (hnone : siae.finalState = none) (hsame : siae.SameReview siae')
    (hstate : siae.EvaluationIsFinal none → siae'.stateFromApplications.outcome = siae.stateFromApplications.outcome) :
    KeepsOutcome none none siae siae' := by
  intro hfinal
  have hfinal' : siae'.EvaluationIsFinal none := by
    unfold EvaluationIsFinal
    rw [hsame.finalReviewedAt]
    exact hfinal
  refine ⟨hfinal', ?_⟩
  rw [state_of_final (hsame.finalState.trans hnone) hfinal', state_of_final hnone hfinal, hstate hfinal]

theorem keepsOutcome_institutionEvaluatedSiaeValidation (h : siae.Inv none clock)
    (hok : siae.institutionEvaluatedSiaeValidation none now = .ok siae') : KeepsOutcome none none siae siae' := by
  intro hfinal
  obtain ⟨hne, hreviewed⟩ := h.reviewed_of_isFinal hfinal
  unfold EvaluatedSiae.institutionEvaluatedSiaeValidation at hok
  split at hok
  · rename_i hreview
    unfold CanReview at hreview
    split at hreview
    · rename_i hnone
      exact absurd hnone hreviewed
    · exact absurd hreview.1 hne
  · cases hok
    exact ⟨hfinal, rfl⟩

/-- A job application without criteria: the SIAE has not even selected them. -/
theorem evaluatedAdministrativeCriteria_of_pending {a : EvaluatedJobApplication} (ha : a.computeState = .pending) :
    a.evaluatedAdministrativeCriteria = [] := by
  rcases maxPriority_spec EvaluatedJobApplicationsState.statesPriority .pending
    (a.evaluatedAdministrativeCriteria.map EvaluatedAdministrativeCriteria.state) with ⟨hnil, _⟩ | ⟨hmem, _⟩
  · exact List.map_eq_nil_iff.mp hnil
  · change a.computeState ∈ _ at hmem
    rw [ha] at hmem
    obtain ⟨x, _, hx⟩ := List.mem_map.mp hmem
    unfold EvaluatedAdministrativeCriteria.state at hx
    repeat' split at hx
    all_goals cases hx

theorem keepsOutcome_siaeSelectCriteria (h : siae.Inv none clock) {j : Nat} {checked : List Nat}
    (hok : siae.siaeSelectCriteria isValid j checked = .ok siae') : KeepsOutcome none none siae siae' := by
  obtain ⟨hsame, a, ha, b, hb, hab, _⟩ := mem_of_updateJobApplication hok
  refine .of_sameReview h.finalState hsame fun hfinal => ?_
  have hreviewed := (h.reviewed_of_isFinal hfinal).2
  have hpending : a.computeState = .pending := by
    refine Decidable.byContradiction fun hne => ?_
    simp only [shouldSelectCriteria, hne, hreviewed, false_and, if_false, ite_self, if_true] at hab
    cases hab
  have hnil := evaluatedAdministrativeCriteria_of_pending hpending
  have hold : siae.stateFromApplications.Unsubmitted := unsubmitted_of_mem ha (Or.inl (by rw [hpending]; rfl))
  have hnew : siae'.stateFromApplications.Unsubmitted := by
    split at hab
    · cases hab
    · dsimp only at hab
      split at hab
      · cases hab
        cases hcreated : (saveSelectedCriteria a (a.diagnosisCriteria.filter (· ∈ checked))
            (a.diagnosisCriteria.filter fun key => ¬ (key ∈ a.diagnosisCriteria.filter (· ∈ checked) ↔
              key ∈ a.evaluatedAdministrativeCriteria.map
                EvaluatedAdministrativeCriteria.administrativeCriteria))).evaluatedAdministrativeCriteria with
        | nil =>
            refine unsubmitted_of_mem hb (Or.inl ?_)
            unfold EvaluatedJobApplication.computeState
            rw [hcreated]
            rfl
        | cons x l =>
            have hx : x ∈ (saveSelectedCriteria a _ _).evaluatedAdministrativeCriteria :=
              hcreated ▸ List.mem_cons_self
            simp only [saveSelectedCriteria, hnil, List.filter_nil, List.nil_append, List.mem_map] at hx
            obtain ⟨key, _, rfl⟩ := hx
            exact unsubmitted_of_mem_criteria (mem_criteria.mpr ⟨_, hb, hcreated ▸ List.mem_cons_self⟩) rfl rfl
      · cases hab
        exact unsubmitted_of_mem hb (Or.inl (by rw [hpending]; rfl))
  rw [hnew.outcome_eq, hold.outcome_eq]

theorem keepsOutcome_siaeUploadDoc (h : siae.Inv none clock) {j k file : Nat}
    (hguard : siae.finalReviewedAt.isSome → siae.state none = .accepted →
      ∀ x ∈ siae.criterion j k, x.submittedAt = none)
    (hok : siae.siaeUploadDoc now j k file = .ok siae') : KeepsOutcome none none siae siae' := by
  obtain ⟨hsame, x, d, hx, hd, hxd, _⟩ := mem_of_updateCriteria hok
  have hmem := mem_criteria_of_criterion hx
  split at hxd
  · rename_i hupload
    cases hxd
    have hcertified : x.criteriaCertified = false := by
      refine Bool.eq_false_iff.mpr fun hcertified => ?_
      obtain ⟨haccepted, hsubmitted⟩ := h.certified x hmem hcertified
      rcases hupload.2 with hnone | ⟨hrefused, _⟩
      · exact absurd hnone hsubmitted
      · exact absurd (haccepted.symm.trans hrefused) nofun
    refine .of_sameReview h.finalState hsame fun hfinal => ?_
    have hnew := unsubmitted_of_mem_criteria hd hcertified rfl
    rw [hnew.outcome_eq]
    -- The SIAE was refused before: else the guard says that it replaces no proof that it has submitted.
    rcases state_eq_or_of_final h hfinal with haccepted | hrefused
    · have hsome := Option.isSome_iff_ne_none.mpr (h.reviewed_of_isFinal hfinal).1
      exact (unsubmitted_of_mem_criteria hmem hcertified (hguard hsome haccepted x hx)).outcome_eq.symm
    · exact (state_of_final h.finalState hfinal ▸ hrefused).symm
  · cases hxd

theorem keepsOutcome_siaeSubmitProofs (h : siae.Inv none clock)
    (hok : siae.siaeSubmitProofs none now = .ok siae') : KeepsOutcome none none siae siae' := by
  intro hfinal
  unfold EvaluatedSiae.siaeSubmitProofs at hok
  split at hok
  · rename_i hsubmit
    rcases state_eq_or_of_final h hfinal with hstate | hstate
    · exact absurd (hstate.symm.trans hsubmit.2) nofun
    · exact absurd (hstate.symm.trans hsubmit.2) nofun
  · cases hok
    exact ⟨hfinal, rfl⟩

theorem keepsOutcome_institutionEvaluatedSiaeNotify
    (hok : siae.institutionEvaluatedSiaeNotify endedAt now = .ok siae') :
    KeepsOutcome endedAt endedAt siae siae' := by
  intro hfinal
  unfold EvaluatedSiae.institutionEvaluatedSiaeNotify at hok
  split at hok
  · cases hok
    exact ⟨hfinal, rfl⟩
  · cases hok

theorem keepsOutcome_freeze : KeepsOutcome endedAt endedAt siae (siae.freeze now) := by
  intro hfinal
  unfold EvaluatedSiae.freeze
  split
  · exact ⟨hfinal, rfl⟩
  · exact ⟨hfinal, rfl⟩

theorem keepsOutcome_toAdversarialPhase (h : siae.Inv endedAt clock)
    (hok : siae.toAdversarialPhase endedAt now = .ok siae') :
    KeepsOutcome endedAt endedAt siae { siae' with submissionFreezedAt := none } := by
  intro hfinal
  unfold EvaluatedSiae.toAdversarialPhase at hok
  split at hok
  · split at hok
    · cases hok
      exact ⟨hfinal, rfl⟩
    · cases hok
      exact ⟨hfinal, rfl⟩
    · cases hok
  · rename_i hreviewed
    -- Without a review, the evaluation is final because the campaign has ended.
    cases hended : endedAt with
    | none =>
        rw [hended] at h hfinal
        exact absurd (Option.not_isSome_iff_eq_none.mp hreviewed) (h.reviewed_of_isFinal hfinal).2
    | some t =>
        have hstate := h.finalState
        rw [hended] at hstate
        have hsame : siae'.finalState = siae.finalState := by
          split at hok
          all_goals cases hok
          all_goals rfl
        refine ⟨Or.inr rfl, ?_⟩
        rcases hstate with hs | hs
        · simp only [state, hsame, hs]
        · simp only [state, hsame, hs]

theorem keepsOutcome_close (h : siae.Inv none clock) (hok : (siae.close now).save = .ok siae') :
    KeepsOutcome none (some now) siae siae' := by
  intro hfinal
  obtain ⟨_, rfl⟩ := save_eq_ok.mp hok
  have hstate : (siae.close now).finalState = some (siae.state (some now)) := by
    unfold EvaluatedSiae.close
    dsimp only
    split
    · rfl
    · rfl
  refine ⟨Or.inr rfl, ?_⟩
  have hclosed : (siae.close now).state (some now) = siae.state (some now) := by
    simp only [state, hstate]
  have hended : siae.EvaluationIsFinal (some now) := Or.inr rfl
  rw [hclosed, state_of_final h.finalState hended, state_of_final h.finalState hfinal]

end EvaluatedSiae

end Itou.SiaeEvaluations
