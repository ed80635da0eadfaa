import Itou.Approvals.PeNotification

/-!
# France Travail has the current dates

The invariant of the runs where nobody changes the approval behind the back of the command, nor the command behind the
back of a transaction that saves it.
-/

namespace Itou.Approvals.PeNotification

open Itou.Lib

/-! ## One notification -/

/-- A notification is a success when the API acknowledged the dates of the instance. -/
theorem notifyPoleEmploi_success {self : Approval} {user : User} {localdate : Int → Int} {now : Int}
    {rechercheIndividu : Response String} {miseAJourPassIae : Response Unit}
    (h : (notifyPoleEmploi self user localdate now rechercheIndividu miseAJourPassIae).notification.status = .success) :
    (notifyPoleEmploi self user localdate now rechercheIndividu miseAJourPassIae).acknowledged = some self.dates := by
  have hmaj : ∀ user, (peMajPass self.dates user now miseAJourPassIae).notification.status = .success →
      (peMajPass self.dates user now miseAJourPassIae).acknowledged = some self.dates := by
    intro user hstatus
    cases miseAJourPassIae with
    | ok _ => rfl
    | apiException => cases hstatus
    | badResponse _ => cases hstatus
  unfold notifyPoleEmploi at h ⊢
  split at h
  · cases h
  · split at h
    · cases h
    · split at h
      · cases h
      · split at h
        · rw [if_neg ‹_›, if_neg ‹_›, if_neg ‹_›, if_pos ‹_›]
          cases rechercheIndividu with
          | ok idNational => exact hmaj _ h
          | apiException => cases h
          | badResponse _ => cases h
        · rw [if_neg ‹_›, if_neg ‹_›, if_neg ‹_›, if_neg ‹_›]
          exact hmaj _ h

/-! ## The trigger -/

theorem planPeNotification_eq_none {old new : Approval} : planPeNotificationOnDateUpdates old new = none ↔
    new.dates ≠ old.dates ∧ new.notification.status ≠ old.notification.status := by
  unfold planPeNotificationOnDateUpdates
  split
  · simp [*]
  · split <;> simp [*]

/-- A row that is a success after a save was saved as it is, and its dates are those of before. -/
theorem planPeNotification_success {old new approval : Approval}
    (h : planPeNotificationOnDateUpdates old new = some approval) (hsuccess : approval.notification.status = .success) :
    approval.dates = old.dates ∧ new.dates = old.dates ∧ new.notification.status = .success := by
  unfold planPeNotificationOnDateUpdates at h
  split at h
  · rename_i hdates
    cases h
    exact ⟨hdates, hdates, hsuccess⟩
  · split at h
    · cases h
    · cases h
      cases hsuccess

/-! ## The condition -/

structure State.Inv (s : State) : Prop where
  one : ∀ run run', s.hands run ≠ none → s.hands run' ≠ none → run = run'
  row : s.approval.notification.status = .success →
    s.acknowledged = some s.approval.dates ∧ ∀ run, s.hands run = none
  hand : ∀ run, ∀ hand ∈ s.hands run, ∀ outcome ∈ hand.outcome, outcome.status = .success →
    s.acknowledged = some hand.approval.dates

variable {localdate : Int → Int} {s s' : State}

/-- A save raises when it changes the dates with an instance whose status is not that of the row. -/
theorem raises_iff {action : Action} : s.Raises action ↔ ∃ transaction dates, action = .save transaction dates ∧
    ∃ approval ∈ s.instances transaction, dates ≠ s.approval.dates ∧
      approval.notification.status ≠ s.approval.notification.status := by
  unfold State.Raises
  refine exists_congr fun transaction => exists_congr fun dates => and_congr_right fun _ => ?_
  constructor
  · rintro ⟨new, hnew, hnone⟩
    obtain ⟨approval, happroval, rfl⟩ := Option.map_eq_some_iff.mp hnew
    exact ⟨approval, happroval, planPeNotification_eq_none.mp hnone⟩
  · rintro ⟨approval, happroval, hnone⟩
    exact ⟨_, Option.map_eq_some_iff.mpr ⟨approval, happroval, rfl⟩, planPeNotification_eq_none.mpr hnone⟩

theorem not_raises_of_keeps {action : Action} (h : s.Keeps action) : ¬ s.Raises action := by
  intro hraises
  obtain ⟨transaction, dates, rfl, approval, happroval, hdates, hstatus⟩ := raises_iff.mp hraises
  rcases h approval happroval with hfresh | ⟨hsame, -⟩
  · exact hstatus hfresh
  · exact hdates hsame

theorem State.Inv.law (h : s.Inv) : s.Law := fun hsuccess _ => (h.row hsuccess).1

theorem inv_start {dates : Dates} {originSiaeKind : CompanyKind} {user : User} {now : Int} :
    (State.start dates originSiaeKind user now).Inv where
  one _ _ h := absurd rfl h
  row h := nomatch h
  hand _ _ h := nomatch h

/-- While a run has the approval in hand, the row is no success. -/
theorem State.Inv.ne_success (h : s.Inv) {run : Nat} {hand : Hand} (hhand : s.hands run = some hand) :
    s.approval.notification.status ≠ .success := by
  intro hsuccess
  rw [(h.row hsuccess).2 run] at hhand
  cases hhand

/-- Only the row changes, and a success stays what it was. -/
theorem State.Inv.of_approval (h : s.Inv) {approval : Approval} {instances : Nat → Option Approval}
    (hrow : approval.notification.status = .success →
      approval.dates = s.approval.dates ∧ s.approval.notification.status = .success) :
    State.Inv { s with approval, instances } where
  one := h.one
  row hsuccess := by
    obtain ⟨hdates, hold⟩ := hrow hsuccess
    obtain ⟨hacknowledged, hhands⟩ := h.row hold
    exact ⟨hacknowledged.trans (congrArg some hdates.symm), hhands⟩
  hand := h.hand

/-- The run lets the approval go, and a success that it records is that of the row. -/
theorem State.Inv.release (h : s.Inv) {run : Nat} {hand : Hand} (hhand : s.hands run = some hand) {approval : Approval}
    (hrow : approval.notification.status = .success → s.acknowledged = some approval.dates) :
    State.Inv { s with approval, hands := Function.update s.hands run none } := by
  have hnone : ∀ run', Function.update s.hands run none run' = none := by
    intro run'
    by_cases heq : run' = run
    · rw [heq, Function.update_self]
    · rw [Function.update_of_ne heq]
      by_contra hother
      exact heq (h.one run' run hother (hhand ▸ Option.some_ne_none _))
  refine ⟨fun run' _ hne => absurd (hnone run') hne, fun hsuccess => ⟨hrow hsuccess, hnone⟩, fun run' hand' hmem => ?_⟩
  have hsome : Function.update s.hands run none run' = some hand' := hmem
  rw [hnone run'] at hsome
  cases hsome

theorem inv_step {action : Action} (hinv : s.Inv) (hkeeps : s.Keeps action) (h : s.step localdate action = some s') :
    s'.Inv := by
  cases action with
  | load transaction =>
      cases h
      exact hinv.of_approval fun hsuccess => ⟨rfl, hsuccess⟩
  | save transaction dates =>
      obtain ⟨new, hnew, h⟩ := Option.map_eq_some_iff.mp h
      obtain ⟨loaded, hloaded, rfl⟩ := Option.map_eq_some_iff.mp hnew
      cases htrigger : planPeNotificationOnDateUpdates s.approval { loaded with dates := dates } with
      | none =>
          rw [htrigger] at h
          subst h
          exact hinv.of_approval fun hsuccess => ⟨rfl, hsuccess⟩
      | some approval =>
          rw [htrigger] at h
          subst h
          refine hinv.of_approval fun hsuccess => ?_
          obtain ⟨hdates, -, hstatus⟩ := planPeNotification_success htrigger hsuccess
          rcases hkeeps loaded hloaded with hfresh | ⟨-, hnot⟩
          · exact ⟨hdates, hfresh ▸ hstatus⟩
          · exact absurd hstatus hnot
  | updateDates dates =>
      obtain ⟨approval, happroval, rfl⟩ := Option.map_eq_some_iff.mp h
      refine hinv.of_approval fun hsuccess => ?_
      obtain ⟨hdates, -, hstatus⟩ := planPeNotification_success happroval hsuccess
      exact ⟨hdates, hstatus⟩
  | edit user hasAcceptedJobApplication =>
      cases h
      exact ⟨hinv.one, hinv.row, hinv.hand⟩
  | retryErrors =>
      simp only [State.step, Option.some.injEq] at h
      split at h
      · subst h
        exact hinv.of_approval fun hsuccess => nomatch hsuccess
      · exact h ▸ hinv
  | markReady =>
      simp only [State.step, Option.some.injEq] at h
      split at h
      · subst h
        exact hinv.of_approval fun hsuccess => nomatch hsuccess
      · exact h ▸ hinv
  | readBatch run =>
      simp only [State.step] at h
      split at h
      · rename_i hguard
        cases h
        have hothers : ∀ run', run' ≠ run → Function.update s.hands run (some ⟨s.approval, none⟩) run' = none := by
          intro run' hne
          rw [Function.update_of_ne hne]
          exact hkeeps run'
        refine ⟨?_, ?_, ?_⟩
        · intro a b ha hb
          by_contra hne
          by_cases heq : a = run
          · exact hb (hothers b (heq ▸ Ne.symm hne))
          · exact ha (hothers a heq)
        · intro hsuccess
          rcases hguard.1 with hready | hretry
          · rw [hready] at hsuccess
            cases hsuccess
          · rw [hretry] at hsuccess
            cases hsuccess
        · intro run' hand hmem outcome houtcome
          have hsome : Function.update s.hands run (some ⟨s.approval, none⟩) run' = some hand := hmem
          by_cases heq : run' = run
          · rw [heq, Function.update_self] at hsome
            cases hsome
            cases houtcome
          · rw [hothers run' heq] at hsome
            cases hsome
      · cases h
  | notify run rechercheIndividu miseAJourPassIae =>
      obtain ⟨hand, hhand, h⟩ := Option.bind_eq_some_iff.mp h
      split at h
      · cases h
        have hself : ∀ hand' run', Function.update s.hands run (some hand') run' ≠ none → run' = run := by
          intro hand' run' hne
          by_contra heq
          rw [Function.update_of_ne heq] at hne
          exact heq (hinv.one run' run hne (hhand ▸ Option.some_ne_none _))
        refine ⟨fun a b ha hb => (hself _ a ha).trans (hself _ b hb).symm, fun hsuccess => ?_, ?_⟩
        · exact absurd hsuccess (hinv.ne_success hhand)
        · intro run' hand' hmem outcome houtcome hsuccess
          obtain rfl := hself _ run' (Option.ne_none_iff_exists'.mpr ⟨hand', hmem⟩)
          have hsome := hmem
          simp only [Option.mem_def, Function.update_self, Option.some.injEq] at hsome
          subst hsome
          cases houtcome
          rw [notifyPoleEmploi_success hsuccess]
          rfl
      · cases h
  | record run =>
      obtain ⟨hand, hhand, h⟩ := Option.bind_eq_some_iff.mp h
      obtain ⟨outcome, houtcome, rfl⟩ := Option.map_eq_some_iff.mp h
      refine hinv.release hhand fun hsuccess => ?_
      rw [hinv.hand run hand hhand outcome houtcome hsuccess, hkeeps hand hhand outcome houtcome hsuccess]
  | abandon run =>
      simp only [State.step] at h
      split at h
      · cases h
      · rename_i hne
        cases h
        obtain ⟨hand, hhand⟩ := Option.ne_none_iff_exists'.mp hne
        exact hinv.release hhand fun hsuccess => absurd hsuccess (hinv.ne_success hhand)
  | wait duration =>
      cases h
      exact ⟨hinv.one, hinv.row, hinv.hand⟩

end Itou.Approvals.PeNotification
