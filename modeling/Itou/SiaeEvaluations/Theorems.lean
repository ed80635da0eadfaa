import Itou.SiaeEvaluations.Lemmas.Failures

/-!
# Theorems on evaluation campaigns
-/

namespace Itou.SiaeEvaluations

open Itou.Lib

variable {isValid : List Nat → Bool} {s s' : State} {label : DateTime × Action}

/-! ## Runs -/

namespace State

def Inv (s : State) : Prop := s.campaign.Inv s.clock

theorem start_inv (setAt : DateTime) (siaes : List (List Selected)) : (start setAt siaes).Inv := by
  intro siae hsiae
  obtain ⟨jobApplications, _, rfl⟩ := List.mem_map.mp hsiae
  exact inv_populateSiae setAt jobApplications

theorem step_eq_some : s.step isValid label = some s' ↔ s.clock ≤ label.1 ∧ s'.clock = label.1 ∧
    (s.campaign.exec isValid label.1 label.2 = .ok s'.campaign ∨
      s'.campaign = s.campaign ∧ ∃ failure, s.campaign.exec isValid label.1 label.2 = .error failure) := by
  unfold step
  split
  · rename_i hnow
    cases hexec : s.campaign.exec isValid label.1 label.2 with
    | ok campaign =>
        constructor
        · intro h
          cases h
          exact ⟨hnow, rfl, Or.inl rfl⟩
        · rintro ⟨_, hclock, h | ⟨_, failure, h⟩⟩
          · cases h
            rw [← hclock]
          · cases h
    | error failure =>
        constructor
        · intro h
          cases h
          exact ⟨hnow, rfl, Or.inr ⟨rfl, failure, rfl⟩⟩
        · rintro ⟨_, hclock, h | ⟨hcampaign, _⟩⟩
          · cases h
          · rw [← hclock, ← hcampaign]
  · rename_i hnow
    exact ⟨nofun, fun h => absurd h.1 hnow⟩

theorem Inv.step (h : s.Inv) (hstep : s.step isValid label = some s') : s'.Inv := by
  obtain ⟨hnow, hclock, hexec⟩ := step_eq_some.mp hstep
  unfold Inv
  rw [hclock]
  rcases hexec with hok | ⟨hcampaign, _⟩
  · exact EvaluationCampaign.Inv.exec h hnow hok
  · rw [hcampaign]
    exact h.mono hnow

end State

/-! ## The outcome -/

/-- The SIAE at this place has a final evaluation with this outcome, which is stored when the campaign has ended. -/
def State.HasOutcome (i : Nat) (outcome : EvaluatedSiaeState) (s : State) : Prop :=
  ∃ siae ∈ s.campaign.evaluatedSiaes[i]?, siae.EvaluationIsFinal s.campaign.endedAt ∧
    siae.state s.campaign.endedAt = outcome ∧ (outcome = .accepted ∨ outcome = .refused) ∧
    (s.campaign.endedAt.isSome → siae.finalState = some outcome)

instance (i : Nat) (outcome : EvaluatedSiaeState) : DecidablePred (State.HasOutcome i outcome) :=
  fun s => inferInstanceAs (Decidable (∃ _ ∈ s.campaign.evaluatedSiaes[i]?, _))

theorem State.Inv.hasOutcome (h : s.Inv) {i : Nat} {siae : EvaluatedSiae}
    (hsiae : s.campaign.evaluatedSiaes[i]? = some siae) (hfinal : siae.EvaluationIsFinal s.campaign.endedAt) :
    s.HasOutcome i (siae.state s.campaign.endedAt) := by
  have hinv := EvaluationCampaign.Inv.getElem? h hsiae
  refine ⟨siae, hsiae, hfinal, rfl, EvaluatedSiae.state_eq_or_of_final hinv hfinal, fun hended => ?_⟩
  obtain ⟨t, ht⟩ := Option.isSome_iff_exists.mp hended
  have hstate := hinv.finalState
  rw [ht] at hstate ⊢
  rcases hstate with hs | hs <;> simp only [EvaluatedSiae.state, hs]

/-- What one request does to the outcome. -/
theorem State.HasOutcome.step {i : Nat} {outcome : EvaluatedSiaeState} (h : s.HasOutcome i outcome) (hinv : s.Inv)
    (hguard : s.LeavesFinal label) (hstep : s.step isValid label = some s') : s'.HasOutcome i outcome := by
  obtain ⟨siae, hsiae, hfinal, rfl, _⟩ := h
  rw [Option.mem_def] at hsiae
  have hinv' := hinv.step hstep
  -- It is enough to find the SIAE with the same state in the new campaign.
  suffices hkeeps : ∃ siae', s'.campaign.evaluatedSiaes[i]? = some siae' ∧
      EvaluatedSiae.KeepsOutcome s.campaign.endedAt s'.campaign.endedAt siae siae' by
    obtain ⟨siae', hsiae', hkeeps⟩ := hkeeps
    obtain ⟨hfinal', hstate⟩ := hkeeps hfinal
    exact hstate ▸ hinv'.hasOutcome hsiae' hfinal'
  have hsame : EvaluatedSiae.KeepsOutcome s.campaign.endedAt s.campaign.endedAt siae siae := fun h => ⟨h, rfl⟩
  obtain ⟨hnow, _, hexec⟩ := State.step_eq_some.mp hstep
  rcases hexec with hok | ⟨hcampaign, _⟩
  swap
  · exact ⟨siae, hcampaign ▸ hsiae, hcampaign ▸ hsame⟩
  have hinvSiae := EvaluationCampaign.Inv.getElem? hinv hsiae
  -- A view of one SIAE, this one or another.
  have hview : ∀ {i' : Nat} {f : EvaluatedSiae → Except Failure EvaluatedSiae},
      (∀ siae', i' = i → siae.Inv none s.clock → f siae = .ok siae' → EvaluatedSiae.KeepsOutcome none none siae siae') →
      s.campaign.onSiae i' f = .ok s'.campaign → ∃ siae', s'.campaign.evaluatedSiaes[i]? = some siae' ∧
        EvaluatedSiae.KeepsOutcome s.campaign.endedAt s'.campaign.endedAt siae siae' := by
    intro i' f hf hok
    obtain ⟨hnone, siae₁, siae', hsiae₁, hf₁, hcampaign⟩ := EvaluationCampaign.onSiae_eq_ok.mp hok
    rw [hcampaign]
    by_cases heq : i' = i
    · subst heq
      obtain rfl : siae₁ = siae := Option.some.inj (hsiae₁.symm.trans hsiae)
      refine ⟨siae', List.getElem?_set_self (List.getElem?_eq_some_iff.mp hsiae₁).1, ?_⟩
      dsimp only
      rw [hnone]
      exact hf siae' rfl (hnone ▸ hinvSiae) hf₁
    · exact ⟨siae, (List.getElem?_set_ne heq).trans hsiae, hsame⟩
  obtain ⟨now, action⟩ := label
  cases action with
  | institutionEvaluatedAdministrativeCriteria i' j k action =>
      refine hview (fun siae' heq hinvSiae _ hfinal => ?_) hok
      subst heq
      have hnone := (EvaluationCampaign.onSiae_eq_ok.mp hok).1
      exact absurd (hguard hnone siae hsiae) (hinvSiae.reviewed_of_isFinal hfinal).1
  | institutionEvaluatedSiaeValidation i' =>
      have hnone := (EvaluationCampaign.onSiae_eq_ok.mp hok).1
      refine hview (fun siae' _ hinvSiae hf => ?_) hok
      rw [hnone] at hf
      exact EvaluatedSiae.keepsOutcome_institutionEvaluatedSiaeValidation hinvSiae hf
  | institutionEvaluatedSiaeNotify i' =>
      obtain ⟨siaes, hsiaes, hcampaign⟩ := map_eq_ok.mp hok
      obtain ⟨siae₁, siae', hsiae₁, hf₁, rfl⟩ := updateAt_eq_ok.mp hsiaes
      rw [← hcampaign]
      by_cases heq : i' = i
      · subst heq
        obtain rfl : siae₁ = siae := Option.some.inj (hsiae₁.symm.trans hsiae)
        exact ⟨siae', List.getElem?_set_self (List.getElem?_eq_some_iff.mp hsiae₁).1,
          EvaluatedSiae.keepsOutcome_institutionEvaluatedSiaeNotify hf₁⟩
      · exact ⟨siae, (List.getElem?_set_ne heq).trans hsiae, hsame⟩
  | siaeSelectCriteria i' j checked =>
      exact hview (fun siae' _ hinvSiae hf => EvaluatedSiae.keepsOutcome_siaeSelectCriteria hinvSiae hf) hok
  | siaeUploadDoc i' j k file =>
      have hnone := (EvaluationCampaign.onSiae_eq_ok.mp hok).1
      refine hview (fun siae' heq hinvSiae hf => ?_) hok
      subst heq
      exact EvaluatedSiae.keepsOutcome_siaeUploadDoc hinvSiae (hguard hnone siae hsiae) hf
  | siaeSubmitProofs i' =>
      have hnone := (EvaluationCampaign.onSiae_eq_ok.mp hok).1
      refine hview (fun siae' _ hinvSiae hf => ?_) hok
      rw [hnone] at hf
      exact EvaluatedSiae.keepsOutcome_siaeSubmitProofs hinvSiae hf
  | freeze =>
      have hcampaign := Except.ok.inj hok
      rw [← hcampaign]
      exact ⟨siae.freeze now, by simp only [EvaluationCampaign.freeze, List.getElem?_map, hsiae, Option.map_some],
        EvaluatedSiae.keepsOutcome_freeze⟩
  | transitionToAdversarialPhase =>
      obtain ⟨siaes, hsiaes, hcampaign⟩ := EvaluationCampaign.transitionToAdversarialPhase_eq_ok hok
      obtain ⟨siae', hsiae', hf⟩ := getElem?_of_mapM_eq_ok hsiaes hsiae
      rw [hcampaign]
      exact ⟨_, by simp only [List.getElem?_map, hsiae', Option.map_some],
        EvaluatedSiae.keepsOutcome_toAdversarialPhase hinvSiae hf⟩
  | close =>
      rcases EvaluationCampaign.close_eq_ok hok with ⟨hcampaign, _⟩ | ⟨hnone, saved, hsaved, hcampaign⟩
      · exact ⟨siae, hcampaign ▸ hsiae, hcampaign ▸ hsame⟩
      · obtain ⟨siae', hsiae', hf⟩ := getElem?_of_mapM_eq_ok hsaved hsiae
        rw [hcampaign, hnone]
        exact ⟨siae', hsiae', EvaluatedSiae.keepsOutcome_close (hnone ▸ hinvSiae) hf⟩

/-- **The outcome is final.** Once an evaluation is final, in any reachable state, its outcome stays as long as the
requests leave the criteria of final reviews. -/
theorem outcome_final_of_guard (isValid : List Nat → Bool) (setAt : DateTime) (siaes : List (List Selected))
    (before after : List (DateTime × Action)) {s : State}
    (hrun : run (State.step isValid) (State.start setAt siaes) before = some s) {i : Nat} {siae : EvaluatedSiae}
    (hsiae : s.campaign.evaluatedSiaes[i]? = some siae) (hfinal : siae.EvaluationIsFinal s.campaign.endedAt)
    (hguard : AllSteps (State.step isValid) State.LeavesFinal s after) :
    AllStates (State.step isValid) (State.HasOutcome i (siae.state s.campaign.endedAt)) s after := by
  have hinv : s.Inv := invariant_of_run (fun _ _ _ h hstep => h.step hstep) (State.start_inv setAt siaes) hrun
  refine (allStates_of_allSteps (I := fun t => t.Inv ∧ t.HasOutcome i (siae.state s.campaign.endedAt))
    (fun t label t' h hlabel hstep => ⟨h.1.step hstep, h.2.step h.1 hlabel hstep⟩)
    ⟨hinv, hinv.hasOutcome hsiae hfinal⟩ hguard).mono fun _ h => h.2

/-- One SIAE with one job application. -/
def oneSiae : List (List Selected) := [[⟨[7, 8], []⟩]]

/-- The form wants one criterion. -/
def oneCriterion (keys : List Nat) : Bool := ¬ keys = []

/-- The SIAE selects criteria, and uploads and submits a proof for each of them. -/
def proved : List (DateTime × Action) :=
  [(⟨1, 0⟩, .siaeSelectCriteria 0 0 [7, 8]), (⟨2, 0⟩, .siaeUploadDoc 0 0 0 100), (⟨3, 0⟩, .siaeUploadDoc 0 0 1 101),
   (⟨4, 0⟩, .siaeSubmitProofs 0)]

/-- The institution accepts both proofs and validates its review. -/
def accepted : List (DateTime × Action) :=
  [(⟨5, 0⟩, .institutionEvaluatedAdministrativeCriteria 0 0 0 .accept),
   (⟨6, 0⟩, .institutionEvaluatedAdministrativeCriteria 0 0 1 .accept),
   (⟨7, 0⟩, .institutionEvaluatedSiaeValidation 0)]

/-- The institution refuses one proof and does not look at the other before the adversarial phase. -/
def acceptedByDefault : List (DateTime × Action) :=
  [(⟨5, 0⟩, .institutionEvaluatedAdministrativeCriteria 0 0 0 .refuse), (⟨6, 0⟩, .transitionToAdversarialPhase)]

theorem outcome_final_accepted : ∃ s,
    run (State.step oneCriterion) (State.start ⟨0, 0⟩ oneSiae) (proved ++ accepted) = some s ∧
      AllStates (State.step oneCriterion) (State.HasOutcome 0 .accepted) s
        [(⟨8, 0⟩, .transitionToAdversarialPhase), (⟨9, 0⟩, .close)] := by
  have hreached : ∃ s ∈ run (State.step oneCriterion) (State.start ⟨0, 0⟩ oneSiae) (proved ++ accepted),
      (∃ siae ∈ s.campaign.evaluatedSiaes[0]?, siae.EvaluationIsFinal s.campaign.endedAt ∧
        siae.state s.campaign.endedAt = .accepted) ∧
      AllSteps (State.step oneCriterion) State.LeavesFinal s
        [(⟨8, 0⟩, .transitionToAdversarialPhase), (⟨9, 0⟩, .close)] := by
    decide
  obtain ⟨s, hrun, ⟨siae, hsiae, hfinal, hstate⟩, hguard⟩ := hreached
  exact ⟨s, hrun, hstate ▸ outcome_final_of_guard oneCriterion _ _ _ _ hrun hsiae hfinal hguard⟩

/-- The institution refuses a proof after the final review, and the SIAE replaces a proof that was refused after it
was accepted by default: the outcome changes. -/
theorem outcome_changed :
    (∃ s ∈ run (State.step oneCriterion) (State.start ⟨0, 0⟩ oneSiae) (proved ++ accepted),
      s.HasOutcome 0 .accepted ∧ ¬ AllStates (State.step oneCriterion) (State.HasOutcome 0 .accepted) s
        [(⟨8, 0⟩, .institutionEvaluatedAdministrativeCriteria 0 0 0 .refuse)]) ∧
    ∃ s ∈ run (State.step oneCriterion) (State.start ⟨0, 0⟩ oneSiae) (proved ++ acceptedByDefault),
      s.HasOutcome 0 .accepted ∧ ¬ AllStates (State.step oneCriterion) (State.HasOutcome 0 .accepted) s
        [(⟨8, 0⟩, .siaeUploadDoc 0 0 0 102)] := by
  decide

/-! ## Failures -/

/-- Only a transition or a closure raises, when the reviews are not in a state from which it can move on. -/
theorem State.Inv.raises_iff (h : s.Inv) (hnow : s.clock ≤ label.1) : ¬ s.Raises isValid label ↔ s.CanMoveOn label := by
  have hraises : s.Raises isValid label ↔
      ∃ failure, s.campaign.exec isValid label.1 label.2 = .error failure ∧ failure.Raised := by
    simp only [State.Raises, Option.mem_def, failure?_eq_some]
  have hview : (∀ failure, s.campaign.exec isValid label.1 label.2 = .error failure → ¬ failure.Raised) →
      ¬ s.Raises isValid label := by
    intro hnot hr
    obtain ⟨failure, hf, hraised⟩ := hraises.mp hr
    exact hnot failure hf hraised
  -- When each failure is one of the code, a request that does not raise succeeds.
  have hcode : (∀ failure, s.campaign.exec isValid label.1 label.2 = .error failure → failure.Raised) →
      (¬ s.Raises isValid label ↔ ∃ c, s.campaign.exec isValid label.1 label.2 = .ok c) := by
    intro hall
    rw [hraises]
    cases hexec : s.campaign.exec isValid label.1 label.2 with
    | ok c => exact iff_of_true (fun ⟨failure, hf, _⟩ => nomatch hf) ⟨c, rfl⟩
    | error failure =>
        exact iff_of_false (fun hnot => hnot ⟨failure, rfl, hall failure hexec⟩) fun ⟨c, hc⟩ => nomatch hc
  obtain ⟨now, action⟩ := label
  cases action with
  | institutionEvaluatedAdministrativeCriteria i j k action =>
      refine iff_of_true (hview fun failure hf => ?_) trivial
      refine EvaluationCampaign.onSiae_not_raised (fun siae _ failure hf => ?_) hf
      refine EvaluatedSiae.updateCriteria_not_raised (fun x failure hx => ?_) hf
      split at hx
      · cases hx
        exact id
      · cases hx
  | institutionEvaluatedSiaeValidation i =>
      refine iff_of_true (hview fun failure hf => ?_) trivial
      refine EvaluationCampaign.onSiae_not_raised (fun siae hsiae failure hf => ?_) hf
      obtain ⟨siae', hok⟩ := (h siae hsiae).validation_ok hnow
      exact absurd (hf.symm.trans hok) nofun
  | institutionEvaluatedSiaeNotify i =>
      refine iff_of_true (hview fun failure hf => ?_) trivial
      refine updateAt_not_raised (fun siae _ failure hf => ?_) (map_eq_error.mp hf)
      unfold EvaluatedSiae.institutionEvaluatedSiaeNotify at hf
      split at hf
      · cases hf
      · cases hf
        exact id
  | siaeSelectCriteria i j checked =>
      refine iff_of_true (hview fun failure hf => ?_) trivial
      refine EvaluationCampaign.onSiae_not_raised (fun siae _ failure hf => ?_) hf
      refine updateAt_not_raised (fun a _ failure ha => ?_) (map_eq_error.mp hf)
      split at ha
      · cases ha
        exact id
      · dsimp only at ha
        split at ha
        · cases ha
        · cases ha
  | siaeUploadDoc i j k file =>
      refine iff_of_true (hview fun failure hf => ?_) trivial
      refine EvaluationCampaign.onSiae_not_raised (fun siae _ failure hf => ?_) hf
      refine EvaluatedSiae.updateCriteria_not_raised (fun x failure hx => ?_) hf
      split at hx
      · cases hx
      · cases hx
        exact id
  | siaeSubmitProofs i =>
      refine iff_of_true (hview fun failure hf => ?_) trivial
      refine EvaluationCampaign.onSiae_not_raised (fun siae _ failure hf => ?_) hf
      unfold EvaluatedSiae.siaeSubmitProofs at hf
      split at hf
      · cases hf
      · cases hf
  | freeze => exact iff_of_true (hview fun failure hf => nomatch hf) trivial
  | transitionToAdversarialPhase =>
      exact (hcode fun _ hf => EvaluationCampaign.raised_of_transition hf).trans
        (EvaluationCampaign.Inv.transition_ok_iff h hnow)
  | close =>
      exact (hcode fun _ hf => EvaluationCampaign.raised_of_close hf).trans
        (EvaluationCampaign.Inv.close_ok_iff h hnow)

/-- **Requests that raise.** A run has no request that raises exactly when each transition and each closure finds
reviews from which it can move on. -/
theorem never_raises_iff_canMoveOn (isValid : List Nat → Bool) (setAt : DateTime) (siaes : List (List Selected))
    (labels : List (DateTime × Action)) :
    AllSteps (State.step isValid) (fun s label => ¬ s.Raises isValid label) (State.start setAt siaes) labels ↔
      AllSteps (State.step isValid) State.CanMoveOn (State.start setAt siaes) labels :=
  allSteps_congr (fun _ _ _ h hstep => h.step hstep)
    (fun _ _ _ h hstep => h.raises_iff (State.step_eq_some.mp hstep).1) (State.start_inv setAt siaes)

/-- The institution refuses a proof, validates its review, and puts the criterion back to pending. -/
def reviewUndone : List (DateTime × Action) :=
  [(⟨5, 0⟩, .institutionEvaluatedAdministrativeCriteria 0 0 0 .refuse),
   (⟨6, 0⟩, .institutionEvaluatedAdministrativeCriteria 0 0 1 .accept),
   (⟨7, 0⟩, .institutionEvaluatedSiaeValidation 0),
   (⟨8, 0⟩, .institutionEvaluatedAdministrativeCriteria 0 0 0 .reinit)]

/-- The institution accepts both proofs, but does not validate its review. -/
def notValidated : List (DateTime × Action) := accepted.take 2

/-- A transition raises after a review was undone, and a closure raises before the transition. -/
theorem transition_and_close_raise :
    ¬ AllSteps (State.step oneCriterion) (fun s label => ¬ s.Raises oneCriterion label) (State.start ⟨0, 0⟩ oneSiae)
        (proved ++ reviewUndone ++ [(⟨9, 0⟩, .transitionToAdversarialPhase)]) ∧
      ¬ AllSteps (State.step oneCriterion) (fun s label => ¬ s.Raises oneCriterion label)
          (State.start ⟨0, 0⟩ oneSiae) (proved ++ notValidated ++ [(⟨9, 0⟩, .close)]) := by
  decide

/-! ## Submissions -/

theorem State.Inv.submitsAll_iff (h : s.Inv) (hnow : s.clock ≤ label.1) :
    s.SubmitsAll isValid label ↔ s.SubmitsUnreviewed label := by
  obtain ⟨now, action⟩ := label
  cases action with
  | siaeSubmitProofs i =>
      exact forall_congr' fun hended => forall₂_congr fun siae hsiae => forall_congr' fun hsubmit =>
        EvaluationCampaign.Inv.submits_iff h hnow hended hsiae hsubmit
  | institutionEvaluatedAdministrativeCriteria | institutionEvaluatedSiaeValidation | institutionEvaluatedSiaeNotify
  | siaeSelectCriteria | siaeUploadDoc | freeze | transitionToAdversarialPhase | close => exact Iff.rfl

/-- **Submissions.** In a run each submission submits all the proofs, and keeps the dates of those that are reviewed,
exactly when each finds the reviews of the proofs that were submitted. -/
theorem submits_all_iff_unreviewed (isValid : List Nat → Bool) (setAt : DateTime) (siaes : List (List Selected))
    (labels : List (DateTime × Action)) :
    AllSteps (State.step isValid) (State.SubmitsAll isValid) (State.start setAt siaes) labels ↔
      AllSteps (State.step isValid) State.SubmitsUnreviewed (State.start setAt siaes) labels :=
  allSteps_congr (fun _ _ _ h hstep => h.step hstep)
    (fun _ _ _ h hstep => h.submitsAll_iff (State.step_eq_some.mp hstep).1) (State.start_inv setAt siaes)

/-- The institution accepts a proof before the SIAE submits it. -/
def reviewedEarly : List (DateTime × Action) :=
  [(⟨1, 0⟩, .siaeSelectCriteria 0 0 [7, 8]), (⟨2, 0⟩, .siaeUploadDoc 0 0 0 100), (⟨3, 0⟩, .siaeUploadDoc 0 0 1 101),
   (⟨4, 0⟩, .institutionEvaluatedAdministrativeCriteria 0 0 0 .accept)]

/-- In the adversarial stage, the institution puts back to pending a proof that it had accepted, and the SIAE replaces
the one that was refused. -/
def reinitialised : List (DateTime × Action) :=
  [(⟨5, 0⟩, .institutionEvaluatedAdministrativeCriteria 0 0 0 .refuse),
   (⟨6, 0⟩, .institutionEvaluatedAdministrativeCriteria 0 0 1 .accept), (⟨7, 0⟩, .institutionEvaluatedSiaeValidation 0),
   (⟨8, 0⟩, .transitionToAdversarialPhase), (⟨9, 0⟩, .institutionEvaluatedAdministrativeCriteria 0 0 1 .reinit),
   (⟨10, 0⟩, .siaeUploadDoc 0 0 0 102)]

/-- A proof that was accepted early is not submitted, so that the SIAE is still submittable and frozen. A proof of the
first phase that was put back to pending is submitted again. -/
theorem submission_misses_proofs :
    (¬ AllSteps (State.step oneCriterion) (State.SubmitsAll oneCriterion) (State.start ⟨0, 0⟩ oneSiae)
        (reviewedEarly ++ [(⟨5, 0⟩, .siaeSubmitProofs 0)]) ∧
      ∃ s ∈ run (State.step oneCriterion) (State.start ⟨0, 0⟩ oneSiae) (reviewedEarly ++ [(⟨5, 0⟩, .siaeSubmitProofs 0)]),
        ∃ siae ∈ s.campaign.evaluatedSiaes[0]?, siae.state none = .submittable ∧ siae.submissionFreezedAt ≠ none) ∧
      ¬ AllSteps (State.step oneCriterion) (State.SubmitsAll oneCriterion) (State.start ⟨0, 0⟩ oneSiae)
        (proved ++ reinitialised ++ [(⟨11, 0⟩, .siaeSubmitProofs 0)]) := by
  decide +kernel

end Itou.SiaeEvaluations
