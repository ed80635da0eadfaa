import Itou.JobApplications.Batches
import Itou.JobApplications.Lemmas.Accept

/-!
# What a transaction does with one application

Each change is a step of the row, and on a coherent row nothing fails that the view does not catch.
-/

namespace Itou.JobApplications

open Itou.Lib

variable {r r' : JobApplication} {now : DateTime}

/-! ## Calls -/

theorem Batch.call_done {caught : TransitionError → Bool} {c : Call} {entry : DateTime × Action}
    (h : Batch.call caught now c r = .done entry r') : r.step entry = some r' := by
  unfold Batch.call at h
  split at h
  · rename_i row hok
    cases h
    exact toOption_eq_some.mpr hok
  · split at h <;> cases h

theorem Batch.call_ne_failed {caught : TransitionError → Bool} {c : Call}
    (h : ∀ e, r.attempt now c = .error e → caught e = true) : Batch.call caught now c r ≠ .failed := by
  unfold Batch.call
  split
  · nofun
  · rename_i e herror
    rw [if_pos (h e herror)]
    nofun

namespace JobApplication

theorem save_error {e : TransitionError} (h : JobApplication.save now r = .error e) : ∃ c, e = .integrityError c := by
  unfold save at h
  split at h
  · cases h
    exact ⟨_, rfl⟩
  · cases h

/-- A transition fails in its state, in its body, or on a constraint. -/
theorem perform_error {α : Type} {t : Transition} {e : TransitionError}
    {body : JobApplication → Except TransitionError (JobApplication × α)}
    (h : (perform now t body r).map Prod.fst = .error e) :
    e = .invalidTransition ∧ r.state ∉ t.sources ∨ (∃ r₀, body r₀ = .error e) ∨ ∃ c, e = .integrityError c := by
  have h := map_eq_error.mp h
  unfold perform at h
  split at h
  · split at h
    · rename_i hbody
      cases h
      exact Or.inr (Or.inl ⟨_, hbody⟩)
    · split at h
      · rename_i hsave
        cases h
        exact Or.inr (Or.inr (save_error hsave))
      · cases h
  · rename_i hstate
    cases h
    exact Or.inl ⟨rfl, hstate⟩

theorem perform_notifyBody_error {t : Transition} {e : TransitionError}
    (h : (perform now t notifyBody r).map Prod.fst = .error e) :
    e = .invalidTransition ∧ r.state ∉ t.sources ∨ ∃ c, e = .integrityError c := by
  rcases perform_error h with hstate | hbody | hsave
  · exact Or.inl hstate
  · obtain ⟨r₀, hr₀⟩ := hbody
    cases hr₀
  · exact Or.inr hsave

theorem transferBody_error {request : TransferRequest} {e : TransitionError}
    (h : transferBody now request r = .error e) : ∃ message, e = .validationError message := by
  unfold transferBody at h
  split at h
  · cases h
    exact ⟨_, rfl⟩
  · cases h

end JobApplication

/-! ## The views -/

namespace Batch

/-- A call whose errors are those of the workflow or of the constraints does not fail, on a coherent row. -/
theorem call_isInvalidTransition (hr : r.Coherent) {c : Call}
    (hc : ∀ e, r.attempt now c = .error e → e = .invalidTransition ∨ ∃ k, e = .integrityError k) :
    call isInvalidTransition now c r ≠ .failed := by
  refine call_ne_failed fun e herror => ?_
  rcases hc e herror with rfl | ⟨k, rfl⟩
  · rfl
  · exact absurd herror ((JobApplication.attempt_safe hr).1 k)

theorem notify_error {t : Transition} {e : TransitionError}
    (h : (perform now t JobApplication.notifyBody r).map Prod.fst = .error e) :
    e = .invalidTransition ∨ ∃ k, e = .integrityError k :=
  (JobApplication.perform_notifyBody_error h).imp_left And.left

theorem work_ne_failed (hr : r.Coherent) (view : Batch) : view.work now r ≠ .failed := by
  cases view with
  | archive user =>
      simp only [work]
      split <;> nofun
  | unarchive =>
      simp only [work]
      split <;> nofun
  | postpone answer =>
      simp only [work]
      split
      · nofun
      · exact call_isInvalidTransition hr fun e => notify_error (r := { r with answer })
  | addToPool answer =>
      simp only [work]
      split
      · nofun
      · exact call_isInvalidTransition hr fun e => notify_error (r := { r with answer })
  | process =>
      simp only [work]
      split
      · nofun
      · exact call_isInvalidTransition hr fun e => notify_error
  | refuse reason shared answer toPrescriber =>
      exact call_isInvalidTransition hr fun e => notify_error (r := { r with
        refusalReason := reason, refusalReasonSharedWithJobSeeker := shared, answer,
        answerToPrescriber := toPrescriber })
  | transfer request =>
      refine call_ne_failed fun e herror => ?_
      rcases JobApplication.perform_error herror with ⟨rfl, _⟩ | ⟨r₀, hbody⟩ | ⟨k, rfl⟩
      · rfl
      · obtain ⟨message, rfl⟩ := JobApplication.transferBody_error hbody
        rfl
      · exact absurd herror ((JobApplication.attempt_safe hr).1 k)

/-- An archived application is neither accepted nor about to be. -/
theorem ne_accepted_of_archived (hr : r.Coherent) (h : r.archivedAt.isSome = true) : r.state ≠ .accepted := by
  have harchived := ((JobApplication.coherent_iff r).mp hr).2.2.2.2.1
  rw [JobApplication.archivedStatus, h, Bool.and_true, Bool.not_eq_true', Bool.or_eq_false_iff] at harchived
  exact of_decide_eq_false harchived.1

theorem work_done (hr : r.Coherent) {view : Batch} {entry : DateTime × Action} (h : view.work now r = .done entry r') :
    r.step entry = some r' := by
  cases view with
  | archive user =>
      simp only [work] at h
      split at h
      · rename_i harchived
        cases h
        unfold JobApplication.canBeArchived at harchived
        have hstate := of_decide_eq_true (Bool.and_eq_true_iff.mp harchived).2
        have hne : r.state ≠ .accepted := fun heq => absurd (heq ▸ hstate) (by decide)
        exact if_pos (by simp only [hstate, hne, ne_eq, not_false_eq_true, decide_true, Bool.and_self])
      · cases h
  | unarchive =>
      simp only [work] at h
      split at h
      · rename_i harchived
        cases h
        exact if_pos (ne_accepted_of_archived hr harchived)
      · cases h
  | postpone answer =>
      simp only [work] at h
      split at h
      · cases h
      · exact call_done h
  | addToPool answer =>
      simp only [work] at h
      split at h
      · cases h
      · exact call_done h
  | process =>
      simp only [work] at h
      split at h
      · cases h
      · exact call_done h
  | refuse reason shared answer toPrescriber => exact call_done h
  | transfer request => exact call_done h

end Batch

/-! ## The transactions -/

namespace Session

variable {ι : Type}

/-- The transactions on job applications are lawful sessions: what they do to a coherent row that they hold are its
steps, and none fails. -/
theorem lawful (sessions : ι → Session) :
    (system sessions).Lawful JobApplication.step JobApplication.Coherent where
  keeps := JobApplication.step_coherent
  done := fun {i k now r entry r'} hr hselects hdone => by
    simp only [system] at hselects hdone
    cases hi : sessions i with
    | batch company applicationIds view =>
        rw [hi] at hdone
        exact Batch.work_done hr hdone
    | archiveJobApplications instant =>
        rw [hi] at hselects hdone
        cases hdone
        exact if_pos (Bool.and_eq_true_iff.mp hselects).1
    | rejectJobApplications jobSeeker instant answer =>
        rw [hi] at hdone
        exact Batch.call_done hdone
  succeeds := fun {i k now r} hr hselects => by
    simp only [system] at hselects ⊢
    cases hi : sessions i with
    | batch company applicationIds view => exact Batch.work_ne_failed hr view
    | archiveJobApplications instant => nofun
    | rejectJobApplications jobSeeker instant answer =>
        rw [hi] at hselects
        -- The command catches no error: the state of the row it has locked allows a refusal.
        refine Batch.call_ne_failed fun e herror => ?_
        have hauto : r.state ∈ autoRejectStates := by
          have := (Bool.and_eq_true_iff.mp hselects).2
          simp only [JobApplication.automaticallyRejectable, Bool.and_eq_true] at this
          exact of_decide_eq_true this.1.1
        rcases JobApplication.perform_notifyBody_error herror with ⟨_, hstate⟩ | ⟨c, rfl⟩
        · refine absurd ?_ hstate
          exact (by decide : ∀ state ∈ autoRejectStates, state ∈ Transition.refuse.sources) r.state hauto
        · exact absurd herror ((JobApplication.attempt_safe hr).1 c)

end Session

end Itou.JobApplications
