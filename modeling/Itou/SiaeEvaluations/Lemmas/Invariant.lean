import Itou.SiaeEvaluations.Campaigns

/-!
# What every campaign keeps

The dates of the reviews are in order and not in the future, a certified criterion stays accepted, and a final state
is stored exactly when the campaign has ended.
-/

namespace Itou.SiaeEvaluations

open Itou.Lib

variable {α : Type} {siae siae' : EvaluatedSiae} {endedAt : Option DateTime} {now clock : DateTime}

/-! ## Updates -/

theorem updateAt_eq_ok {l l' : List α} {i : Nat} {f : α → Except Failure α} :
    updateAt l i f = .ok l' ↔ ∃ a b, l[i]? = some a ∧ f a = .ok b ∧ l' = l.set i b := by
  unfold updateAt
  cases hi : l[i]? with
  | none => exact ⟨nofun, fun ⟨a, b, ha, _⟩ => nomatch ha⟩
  | some a =>
      simp only [map_eq_ok, Option.some.injEq]
      constructor
      · rintro ⟨b, hb, rfl⟩
        exact ⟨a, b, rfl, hb, rfl⟩
      · rintro ⟨_, b, rfl, hb, rfl⟩
        exact ⟨b, hb, rfl⟩

theorem updateAt_eq_error {l : List α} {i : Nat} {f : α → Except Failure α} {e : Failure}
    (h : updateAt l i f = .error e) : e = .http404 ∨ ∃ a, l[i]? = some a ∧ f a = .error e := by
  unfold updateAt at h
  cases hi : l[i]? with
  | none =>
      rw [hi] at h
      cases h
      exact Or.inl rfl
  | some a =>
      rw [hi] at h
      exact Or.inr ⟨a, rfl, map_eq_error.mp h⟩

/-- What `updateAt` does to the elements. -/
theorem mem_of_updateAt {l l' : List α} {i : Nat} {f : α → Except Failure α} (h : updateAt l i f = .ok l') :
    ∃ a ∈ l, ∃ b ∈ l', f a = .ok b ∧ ∀ x ∈ l', x ∈ l ∨ x = b := by
  obtain ⟨a, b, ha, hb, rfl⟩ := updateAt_eq_ok.mp h
  have hi := (List.getElem?_eq_some_iff.mp ha).1
  refine ⟨a, List.mem_of_getElem? ha, b, ?_, hb, fun x hx => List.mem_or_eq_of_mem_set hx⟩
  exact List.mem_iff_getElem?.mpr ⟨i, List.getElem?_set_self hi⟩

/-- The columns that the views on criteria leave as they are. -/
structure EvaluatedSiae.SameReview (siae siae' : EvaluatedSiae) : Prop where
  reviewedAt : siae'.reviewedAt = siae.reviewedAt
  finalReviewedAt : siae'.finalReviewedAt = siae.finalReviewedAt
  finalState : siae'.finalState = siae.finalState

namespace EvaluatedSiae

theorem mem_of_updateJobApplication {j : Nat} {f : EvaluatedJobApplication → Except Failure EvaluatedJobApplication}
    (h : siae.updateJobApplication j f = .ok siae') :
    siae.SameReview siae' ∧ ∃ a ∈ siae.evaluatedJobApplications, ∃ b ∈ siae'.evaluatedJobApplications,
      f a = .ok b ∧ ∀ x ∈ siae'.evaluatedJobApplications, x ∈ siae.evaluatedJobApplications ∨ x = b := by
  obtain ⟨apps, happs, rfl⟩ := map_eq_ok.mp h
  exact ⟨⟨rfl, rfl, rfl⟩, mem_of_updateAt happs⟩

theorem mem_criteria {c : EvaluatedAdministrativeCriteria} :
    c ∈ siae.criteria ↔ ∃ a ∈ siae.evaluatedJobApplications, c ∈ a.evaluatedAdministrativeCriteria :=
  List.mem_flatMap

theorem mem_criteria_of_criterion {j k : Nat} {c : EvaluatedAdministrativeCriteria} (h : siae.criterion j k = some c) :
    c ∈ siae.criteria := by
  obtain ⟨a, ha, hc⟩ := Option.bind_eq_some_iff.mp h
  exact mem_criteria.mpr ⟨a, List.mem_of_getElem? ha, List.mem_of_getElem? hc⟩

/-- What an update of one criterion does to the criteria. -/
theorem mem_of_updateCriteria {j k : Nat}
    {f : EvaluatedAdministrativeCriteria → Except Failure EvaluatedAdministrativeCriteria}
    (h : siae.updateCriteria j k f = .ok siae') :
    siae.SameReview siae' ∧ ∃ c d, siae.criterion j k = some c ∧ d ∈ siae'.criteria ∧
      f c = .ok d ∧ ∀ x ∈ siae'.criteria, x ∈ siae.criteria ∨ x = d := by
  obtain ⟨apps, happs, rfl⟩ := map_eq_ok.mp h
  obtain ⟨a, b, ha, hab, rfl⟩ := updateAt_eq_ok.mp happs
  obtain ⟨criteria, hcriteria, rfl⟩ := map_eq_ok.mp hab
  obtain ⟨c, d, hc, hcd, rfl⟩ := updateAt_eq_ok.mp hcriteria
  have hj := (List.getElem?_eq_some_iff.mp ha).1
  have hk := (List.getElem?_eq_some_iff.mp hc).1
  have hd : d ∈ a.evaluatedAdministrativeCriteria.set k d :=
    List.mem_iff_getElem?.mpr ⟨k, List.getElem?_set_self hk⟩
  refine ⟨⟨rfl, rfl, rfl⟩, c, d, Option.bind_eq_some_iff.mpr ⟨a, ha, hc⟩, ?_, hcd, fun x hx => ?_⟩
  · exact mem_criteria.mpr ⟨_, List.mem_iff_getElem?.mpr ⟨j, List.getElem?_set_self hj⟩, hd⟩
  · obtain ⟨app, happ, hx⟩ := mem_criteria.mp hx
    rcases List.mem_or_eq_of_mem_set happ with happ | rfl
    · exact Or.inl (mem_criteria.mpr ⟨app, happ, hx⟩)
    · refine (List.mem_or_eq_of_mem_set hx).imp_left fun hx => ?_
      exact mem_criteria.mpr ⟨a, List.mem_of_getElem? ha, hx⟩

/-! ## Invariant -/

structure Inv (endedAt : Option DateTime) (clock : DateTime) (siae : EvaluatedSiae) : Prop where
  dates : siae.FinalReviewedAtOnlyAfterReviewedAt
  reviewedAt : ∀ reviewedAt ∈ siae.reviewedAt, reviewedAt ≤ clock
  certified : ∀ c ∈ siae.criteria, c.criteriaCertified = true → c.reviewState = .accepted ∧ c.submittedAt ≠ none
  finalState : match endedAt with
    | none => siae.finalState = none
    | some _ => siae.finalState = some .accepted ∨ siae.finalState = some .refused

theorem Inv.mono (h : siae.Inv endedAt clock) (hnow : clock ≤ now) : siae.Inv endedAt now :=
  { h with reviewedAt := fun reviewedAt hr => le_trans (h.reviewedAt reviewedAt hr) hnow }

theorem Inv.reviewed_of_final (h : siae.Inv endedAt clock) (hfinal : siae.finalReviewedAt ≠ none) :
    siae.reviewedAt ≠ none := by
  obtain ⟨final, hf⟩ := Option.ne_none_iff_exists'.mp hfinal
  obtain ⟨reviewed, hr, _⟩ := h.dates final hf
  exact fun hnone => nomatch hnone ▸ hr

theorem Inv.of_sameReview (h : siae.Inv endedAt clock) (hsame : siae.SameReview siae')
    (hcertified : ∀ c ∈ siae'.criteria, c.criteriaCertified = true → c.reviewState = .accepted ∧ c.submittedAt ≠ none) :
    siae'.Inv endedAt clock := by
  refine ⟨?_, fun reviewedAt hr => h.reviewedAt reviewedAt (hsame.reviewedAt ▸ hr), hcertified, ?_⟩
  · unfold FinalReviewedAtOnlyAfterReviewedAt
    rw [hsame.reviewedAt, hsame.finalReviewedAt]
    exact h.dates
  · rw [hsame.finalState]
    exact h.finalState

/-- The review is done just now. -/
theorem Inv.reviewed (h : siae.Inv endedAt clock) (hnow : clock ≤ now) {reviewedAt finalReviewedAt : Option DateTime}
    (hreviewed : ∀ reviewed ∈ reviewedAt, reviewed ≤ now)
    (hdates : ∀ final ∈ finalReviewedAt, ∃ reviewed ∈ reviewedAt, reviewed ≤ final) :
    Inv endedAt now { siae with reviewedAt, finalReviewedAt } :=
  { h.mono hnow with dates := hdates, reviewedAt := hreviewed }

theorem save_eq_ok : siae.save = .ok siae' ↔ siae.FinalReviewedAtOnlyAfterReviewedAt ∧ siae' = siae := by
  unfold save
  split
  · rename_i h
    simp only [Except.ok.injEq, h, true_and, eq_comm]
  · rename_i h
    exact ⟨nofun, fun hsave => absurd hsave.1 h⟩

/-! ## Views -/

theorem Inv.updateCriteria (h : siae.Inv endedAt clock) {j k : Nat}
    {f : EvaluatedAdministrativeCriteria → Except Failure EvaluatedAdministrativeCriteria}
    (hf : ∀ c ∈ siae.criteria, ∀ d, f c = .ok d → d.criteriaCertified = true →
      d.reviewState = .accepted ∧ d.submittedAt ≠ none)
    (hupdate : siae.updateCriteria j k f = .ok siae') : siae'.Inv endedAt clock := by
  obtain ⟨hsame, c, d, hc, _, hcd, hall⟩ := mem_of_updateCriteria hupdate
  refine h.of_sameReview hsame fun x hx => ?_
  rcases hall x hx with hx | rfl
  · exact h.certified x hx
  · exact hf c (mem_criteria_of_criterion hc) x hcd

theorem Inv.institutionEvaluatedAdministrativeCriteria (h : siae.Inv endedAt clock) {j k : Nat}
    {action : CriteriaAction} (hok : siae.institutionEvaluatedAdministrativeCriteria j k action = .ok siae') :
    siae'.Inv endedAt clock := by
  refine h.updateCriteria (fun c hc d hcd hcertified => ?_) hok
  split at hcd
  · cases hcd
  · rename_i hnot
    cases hcd
    exact absurd hcertified hnot

theorem Inv.siaeUploadDoc (h : siae.Inv endedAt clock) {j k file : Nat}
    (hok : siae.siaeUploadDoc now j k file = .ok siae') : siae'.Inv endedAt clock := by
  refine h.updateCriteria (fun c hc d hcd hcertified => ?_) hok
  split at hcd
  · rename_i hupload
    cases hcd
    -- A certified criterion is submitted and accepted, so that no proof can be uploaded.
    obtain ⟨haccepted, hsubmitted⟩ := h.certified c hc hcertified
    rcases hupload.2 with hnone | ⟨hrefused, _⟩
    · exact absurd hnone hsubmitted
    · exact absurd (haccepted.symm.trans hrefused) nofun
  · cases hcd

theorem Inv.siaeSelectCriteria (h : siae.Inv endedAt clock) {isValid : List Nat → Bool} {j : Nat} {checked : List Nat}
    (hok : siae.siaeSelectCriteria isValid j checked = .ok siae') : siae'.Inv endedAt clock := by
  obtain ⟨hsame, a, ha, b, _, hab, hall⟩ := mem_of_updateJobApplication hok
  refine h.of_sameReview hsame fun c hc hcertified => ?_
  obtain ⟨app, happ, hc⟩ := mem_criteria.mp hc
  rcases hall app happ with happ | rfl
  · exact h.certified c (mem_criteria.mpr ⟨app, happ, hc⟩) hcertified
  · split at hab
    · cases hab
    · dsimp only at hab
      split at hab
      · cases hab
        simp only [saveSelectedCriteria, List.mem_append, List.mem_filter, List.mem_map] at hc
        rcases hc with ⟨hc, _⟩ | ⟨key, _, rfl⟩
        · exact h.certified c (mem_criteria.mpr ⟨a, ha, hc⟩) hcertified
        · exact absurd hcertified Bool.false_ne_true
      · cases hab
        exact h.certified c (mem_criteria.mpr ⟨a, ha, hc⟩) hcertified

theorem mem_criteria_submitCriteria {c : EvaluatedAdministrativeCriteria} :
    c ∈ (siae.submitCriteria now).criteria ↔ ∃ d ∈ siae.criteria,
      c = if d.reviewState = .pending then { d with submittedAt := some now } else d := by
  simp only [mem_criteria, submitCriteria, List.mem_map, exists_exists_and_eq_and]
  constructor
  · rintro ⟨a, ha, d, hd, rfl⟩
    exact ⟨d, ⟨a, ha, hd⟩, rfl⟩
  · rintro ⟨d, ⟨a, ha, hd⟩, rfl⟩
    exact ⟨a, ha, d, hd, rfl⟩

theorem Inv.siaeSubmitProofs (h : siae.Inv endedAt clock)
    (hok : siae.siaeSubmitProofs endedAt now = .ok siae') : siae'.Inv endedAt clock := by
  unfold EvaluatedSiae.siaeSubmitProofs at hok
  split at hok
  · cases hok
    refine h.of_sameReview ⟨rfl, rfl, rfl⟩ fun c hc hcertified => ?_
    obtain ⟨d, hd, rfl⟩ := mem_criteria_submitCriteria.mp hc
    by_cases hpending : d.reviewState = .pending
    · simp only [hpending, if_true] at hcertified
      exact absurd (hpending.symm.trans (h.certified d hd hcertified).1) nofun
    · simp only [hpending, if_false] at hcertified ⊢
      exact h.certified d hd hcertified
  · cases hok
    exact h

theorem Inv.review (h : siae.Inv endedAt clock) (hnow : clock ≤ now) (hok : siae.review endedAt now = .ok siae') :
    siae'.Inv endedAt now := by
  unfold EvaluatedSiae.review at hok
  split at hok
  · obtain ⟨hdates, rfl⟩ := save_eq_ok.mp hok
    exact h.reviewed hnow (fun reviewed hr => (Option.some.inj hr).ge) hdates
  · obtain ⟨hdates, rfl⟩ := save_eq_ok.mp hok
    exact h.reviewed hnow (fun reviewed hr => (Option.some.inj hr).ge) hdates
  · obtain ⟨hdates, rfl⟩ := save_eq_ok.mp hok
    exact h.reviewed hnow (h.mono hnow).reviewedAt hdates
  · cases hok

theorem Inv.institutionEvaluatedSiaeValidation (h : siae.Inv endedAt clock) (hnow : clock ≤ now)
    (hok : siae.institutionEvaluatedSiaeValidation endedAt now = .ok siae') : siae'.Inv endedAt now := by
  unfold EvaluatedSiae.institutionEvaluatedSiaeValidation at hok
  split at hok
  · exact h.review hnow hok
  · cases hok
    exact h.mono hnow

theorem Inv.institutionEvaluatedSiaeNotify (h : siae.Inv endedAt clock)
    (hok : siae.institutionEvaluatedSiaeNotify endedAt now = .ok siae') : siae'.Inv endedAt clock := by
  unfold EvaluatedSiae.institutionEvaluatedSiaeNotify at hok
  split at hok
  · cases hok
    exact h.of_sameReview ⟨rfl, rfl, rfl⟩ h.certified
  · cases hok

/-! ## The campaign moves on -/

theorem Inv.freeze (h : siae.Inv endedAt clock) : (siae.freeze now).Inv endedAt clock := by
  unfold EvaluatedSiae.freeze
  split
  · exact h.of_sameReview ⟨rfl, rfl, rfl⟩ h.certified
  · exact h

theorem Inv.toAdversarialPhase (h : siae.Inv endedAt clock) (hnow : clock ≤ now)
    (hok : siae.toAdversarialPhase endedAt now = .ok siae') : siae'.Inv endedAt now := by
  unfold EvaluatedSiae.toAdversarialPhase at hok
  split at hok
  · split at hok
    · cases hok
      exact h.mono hnow
    · cases hok
      exact h.mono hnow
    · cases hok
  · rename_i hreviewed
    have hnone : siae.reviewedAt = none := Option.not_isSome_iff_eq_none.mp hreviewed
    have hfinal : siae.finalReviewedAt = none :=
      Decidable.byContradiction fun hne => h.reviewed_of_final hne hnone
    have hnotFinal : ∀ final ∈ siae.finalReviewedAt, ∃ reviewed ∈ some now, reviewed ≤ final := by
      rw [hfinal]
      exact fun final hf => nomatch hf
    have hle : ∀ reviewed ∈ some now, reviewed ≤ now := fun reviewed hr => (Option.some.inj hr).ge
    have hboth : ∀ final ∈ some now, ∃ reviewed ∈ some now, reviewed ≤ final :=
      fun final hf => ⟨now, rfl, (Option.some.inj hf).le⟩
    split at hok
    · cases hok
      exact h.reviewed hnow hle hnotFinal
    · cases hok
      exact h.reviewed hnow hle hnotFinal
    · cases hok
      exact h.reviewed hnow hle hboth
    · cases hok
      exact h.reviewed hnow hle hboth
    · cases hok
      exact h.reviewed hnow hle hnotFinal
    · cases hok

end EvaluatedSiae

/-! ## States -/

/-- A maximum is the default of an empty list, or an element with the greatest priority. -/
theorem maxPriority_spec [DecidableEq α] (priority : List α) (default : α) (states : List α) :
    (states = [] ∧ maxPriority priority default states = default) ∨
      (maxPriority priority default states ∈ states ∧
        ∀ s ∈ states, priority.idxOf s ≤ priority.idxOf (maxPriority priority default states)) := by
  unfold maxPriority
  cases h : states.argmax priority.idxOf with
  | none => exact Or.inl ⟨List.argmax_eq_none.mp h, rfl⟩
  | some s => exact Or.inr ⟨List.argmax_mem h, fun t ht => List.le_of_mem_argmax ht h⟩

namespace EvaluatedSiaeState

/-- The SIAE did not submit all its proofs. -/
def Unsubmitted (s : EvaluatedSiaeState) : Prop := s = .pending ∨ s = .submittable

/-- The state of a final evaluation. -/
def outcome : EvaluatedSiaeState → EvaluatedSiaeState
  | .pending | .submittable => .refused
  | .submitted => .accepted
  | s => s

theorem Unsubmitted.outcome_eq {s : EvaluatedSiaeState} (h : s.Unsubmitted) : s.outcome = .refused := by
  rcases h with rfl | rfl <;> rfl

end EvaluatedSiaeState

namespace EvaluatedSiae

open EvaluatedSiaeState (outcome)

theorem stateFromApplications_ne_adversarialStage : siae.stateFromApplications ≠ .adversarialStage := by
  intro h
  rcases maxPriority_spec EvaluatedSiaeState.statesPriority .pending
    (siae.evaluatedJobApplications.map fun a => a.computeState.siaeState) with ⟨_, hmax⟩ | ⟨hmem, _⟩
  · exact absurd (h.symm.trans hmax) nofun
  · change siae.stateFromApplications ∈ _ at hmem
    rw [h] at hmem
    obtain ⟨a, _, ha⟩ := List.mem_map.mp hmem
    cases hstate : a.computeState <;> rw [hstate] at ha <;> cases ha

theorem priority_le_stateFromApplications {a : EvaluatedJobApplication} (ha : a ∈ siae.evaluatedJobApplications) :
    EvaluatedSiaeState.statesPriority.idxOf a.computeState.siaeState ≤
      EvaluatedSiaeState.statesPriority.idxOf siae.stateFromApplications := by
  rcases maxPriority_spec EvaluatedSiaeState.statesPriority .pending
    (siae.evaluatedJobApplications.map fun a => a.computeState.siaeState) with ⟨hnil, _⟩ | ⟨_, hle⟩
  · rw [List.map_eq_nil_iff] at hnil
    exact absurd (hnil ▸ ha) List.not_mem_nil
  · exact hle _ (List.mem_map_of_mem ha)

/-- One job application that is not submitted is enough. -/
theorem unsubmitted_of_mem {a : EvaluatedJobApplication} (ha : a ∈ siae.evaluatedJobApplications)
    (hstate : a.computeState.siaeState.Unsubmitted) : siae.stateFromApplications.Unsubmitted := by
  have hle := priority_le_stateFromApplications ha
  have hthree : 3 ≤ EvaluatedSiaeState.statesPriority.idxOf siae.stateFromApplications := by
    refine le_trans ?_ hle
    rcases hstate with h | h <;> rw [h] <;> decide
  cases h : siae.stateFromApplications with
  | pending => exact Or.inl rfl
  | submittable => exact Or.inr rfl
  | adversarialStage => exact absurd h stateFromApplications_ne_adversarialStage
  | submitted => rw [h] at hthree; exact absurd hthree (by decide)
  | accepted => rw [h] at hthree; exact absurd hthree (by decide)
  | refused => rw [h] at hthree; exact absurd hthree (by decide)

/-- A criterion that is not submitted is enough. -/
theorem unsubmitted_of_mem_criteria {c : EvaluatedAdministrativeCriteria} (hc : c ∈ siae.criteria)
    (hcertified : c.criteriaCertified = false) (hsubmitted : c.submittedAt = none) :
    siae.stateFromApplications.Unsubmitted := by
  obtain ⟨a, ha, hc⟩ := mem_criteria.mp hc
  refine unsubmitted_of_mem ha ?_
  have hmem := List.mem_map_of_mem (f := EvaluatedAdministrativeCriteria.state) hc
  have hfour : 4 ≤ EvaluatedJobApplicationsState.statesPriority.idxOf a.computeState := by
    rcases maxPriority_spec EvaluatedJobApplicationsState.statesPriority .pending
      (a.evaluatedAdministrativeCriteria.map EvaluatedAdministrativeCriteria.state) with ⟨hnil, _⟩ | ⟨_, hle⟩
    · exact absurd (hnil ▸ hmem) List.not_mem_nil
    · refine le_trans ?_ (hle _ hmem)
      unfold EvaluatedAdministrativeCriteria.state
      rw [hcertified, hsubmitted]
      by_cases hproof : c.proof = none
      · simp only [hproof, if_true, Bool.false_eq_true, if_false]
        decide
      · simp only [hproof, if_true, Bool.false_eq_true, if_false]
        decide
  cases h : a.computeState with
  | pending => exact Or.inl rfl
  | processing => exact Or.inl rfl
  | uploaded => exact Or.inr rfl
  | submitted => rw [h] at hfour; exact absurd hfour (by decide)
  | accepted => rw [h] at hfour; exact absurd hfour (by decide)
  | refused => rw [h] at hfour; exact absurd hfour (by decide)
  | refused2 => rw [h] at hfour; exact absurd hfour (by decide)

theorem state_of_final (hnone : siae.finalState = none) (hfinal : siae.EvaluationIsFinal endedAt) :
    siae.state endedAt = siae.stateFromApplications.outcome := by
  have hnot : ¬ (siae.reviewedAt.isSome ∧ ¬ siae.EvaluationIsFinal endedAt) := fun h => h.2 hfinal
  cases h : siae.stateFromApplications <;> simp only [state, hnone, h, if_pos hfinal, if_neg hnot, outcome]

theorem outcome_stateFromApplications :
    siae.stateFromApplications.outcome = .accepted ∨ siae.stateFromApplications.outcome = .refused := by
  cases h : siae.stateFromApplications with
  | adversarialStage => exact absurd h stateFromApplications_ne_adversarialStage
  | pending => exact Or.inr rfl
  | submittable => exact Or.inr rfl
  | submitted => exact Or.inl rfl
  | accepted => exact Or.inl rfl
  | refused => exact Or.inr rfl

/-- A final evaluation has one of two outcomes. -/
theorem state_eq_or_of_final (hinv : siae.Inv endedAt clock) (hfinal : siae.EvaluationIsFinal endedAt) :
    siae.state endedAt = .accepted ∨ siae.state endedAt = .refused := by
  have hstate := hinv.finalState
  cases endedAt with
  | some t => rcases hstate with h | h <;> simp only [state, h, true_or, or_true]
  | none =>
      rw [state_of_final hstate hfinal]
      exact outcome_stateFromApplications

/-- `close` stores the state that the SIAE has once the campaign has ended. -/
theorem Inv.close (h : siae.Inv none clock) (hnow : clock ≤ now) (hok : (siae.close now).save = .ok siae') :
    siae'.Inv (some now) now := by
  obtain ⟨hdates, rfl⟩ := save_eq_ok.mp hok
  have hfinal : siae.EvaluationIsFinal (some now) := Or.inr rfl
  have hstate : siae.state (some now) = .accepted ∨ siae.state (some now) = .refused := by
    rw [state_of_final h.finalState hfinal]
    exact outcome_stateFromApplications
  unfold EvaluatedSiae.close at hdates ⊢
  dsimp only at hdates ⊢
  split at hdates
  · rename_i hcond
    rw [if_pos hcond]
    exact ⟨hdates, (h.mono hnow).reviewedAt, h.certified, hstate.imp (congrArg some) (congrArg some)⟩
  · rename_i hcond
    rw [if_neg hcond]
    exact ⟨hdates, (h.mono hnow).reviewedAt, h.certified, hstate.imp (congrArg some) (congrArg some)⟩

end EvaluatedSiae

end Itou.SiaeEvaluations
