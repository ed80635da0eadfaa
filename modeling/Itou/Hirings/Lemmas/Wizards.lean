import Itou.Hirings.Views
import Itou.JobApplications.Lemmas.HiringDate

/-!
# What the wizards accept

The diagnosis that an acceptance links, and the approval that it reuses.

What the wizards answer when self-prescription is taken away from a company, and which diagnosis an acceptance then uses.
-/

namespace Itou.Hirings

open Itou.Lib
open Itou.Approvals (Approval Db)
open Itou.Eligibility
open Itou.JobApplications
open JobApplication

/-! ## What an acceptance links -/

variable {ctx : AcceptContext} {r r' : JobApplication} {db db' : Db}

/-- The job application is the same up to what an acceptance decides on. -/
structure SameApplication (r r' : JobApplication) : Prop where
  jobSeeker : r'.jobSeeker = r.jobSeeker
  toCompany : r'.toCompany = r.toCompany
  approval : r'.approval = r.approval

theorem SameApplication.trans {r'' : JobApplication} (h : SameApplication r r') (h' : SameApplication r' r'') :
    SameApplication r r'' :=
  ⟨h'.jobSeeker.trans h.jobSeeker, h'.toCompany.trans h.toCompany, h'.approval.trans h.approval⟩

theorem fillAcceptForm_same {form : AcceptForm} {farFuture : Int → Int}
    (h : r.fillAcceptForm ctx (some (form, farFuture)) = .ok r') : SameApplication r r' := by
  unfold fillAcceptForm at h
  simp only at h
  split at h
  · cases h
  · rename_i hsave
    cases h
    obtain ⟨rfl, _⟩ := AcceptForm_save_ok hsave
    unfold AcceptForm.fill
    split
    · exact ⟨rfl, rfl, rfl⟩
    · exact ⟨rfl, rfl, rfl⟩

theorem process_same (h : (perform ctx.now .process notifyBody r).map Prod.fst = .ok r') : SameApplication r r' := by
  obtain ⟨⟨r₁, _⟩, hperform, rfl⟩ := map_eq_ok.mp h
  obtain ⟨_, r₂, hbody, rfl⟩ := perform_ok hperform
  cases hbody
  exact ⟨rfl, rfl, rfl⟩

/-! ## The body -/

theorem linkEligibilityDiagnosis_professional (huser : ctx.user.kind = .professional)
    (hiae : r.toCompany.isSubjectToIaeRules = true) (h : r.linkEligibilityDiagnosis ctx = .ok r') :
    r' = { r with eligibilityDiagnosis := ctx.lastConsideredValid } := by
  simp only [linkEligibilityDiagnosis, hiae, if_true, huser] at h
  cases h
  rfl

theorem issueApproval_other (hiae : r.toCompany.isSubjectToIaeRules = false) {hiringStartAt : Int}
    (h : r.issueApproval ctx hiringStartAt = .ok (r', db)) : r' = r := by
  simp only [issueApproval, hiae, Bool.false_eq_true, if_false] at h
  cases h
  rfl

/-- A valid approval is reused. -/
theorem issueApproval_reused (hiae : r.toCompany.isSubjectToIaeRules = true) {hiringStartAt : Int}
    {e : Nat × Approval} (hlatest : ctx.latestApproval r.jobSeeker = some e) (hvalid : e.2.isValid ctx.today = true)
    (h : r.issueApproval ctx hiringStartAt = .ok (r', db)) : r'.approval = some e.1 := by
  simp only [issueApproval, hiae, if_true, hlatest, hvalid, reuseApproval] at h
  split at h
  · cases h
  · cases h
    rfl

/-- What the transition links: in an SIAE the approval that is valid or, without one, the diagnosis that counts;
elsewhere nothing. -/
structure Links (ctx : AcceptContext) (r r' : JobApplication) : Prop where
  other : r.toCompany.isSubjectToIaeRules = false → r'.approval = r.approval
  reused : r.toCompany.isSubjectToIaeRules = true → ∀ e ∈ ctx.latestApproval r.jobSeeker,
    e.2.isValid ctx.today = true → r'.approval = some e.1
  diagnosis : r.toCompany.isSubjectToIaeRules = true → r'.eligibilityDiagnosis = ctx.lastConsideredValid

theorem acceptBody_links (huser : ctx.user.kind = .professional) (h : r.acceptBody ctx = .ok (r', db)) :
    Links ctx r r' := by
  unfold acceptBody at h
  split at h
  · cases h
  · obtain ⟨r₁, hlink, h⟩ := bind_eq_ok.mp h
    obtain ⟨⟨r₂, db₁⟩, hissue, hdeliver⟩ := bind_eq_ok.mp h
    have happroval := deliverApproval_approval hdeliver
    have hkept := (issueApproval_ok hissue).trans (deliverApproval_ok hdeliver)
    obtain ⟨⟨d, rfl⟩, _⟩ := linkEligibilityDiagnosis_ok hlink
    have hgeiq : ∃ fields, { r with eligibilityDiagnosis := d }.linkGeiqEligibilityDiagnosis ctx =
        { r with toAcceptedOnlyFields := fields } ∧ fields.eligibilityDiagnosis = d ∧ fields.approval = r.approval := by
      unfold linkGeiqEligibilityDiagnosis
      split
      · exact ⟨_, rfl, rfl, rfl⟩
      · exact ⟨_, rfl, rfl, rfl⟩
    obtain ⟨fields, hfields, hd, hnone⟩ := hgeiq
    rw [hfields] at hissue hkept
    refine ⟨fun hother => ?_, fun hiae e he hvalid => ?_, fun hiae => ?_⟩
    · rw [happroval, issueApproval_other (r := { r with toAcceptedOnlyFields := fields }) hother hissue]
      exact hnone
    · exact happroval.trans
        (issueApproval_reused (r := { r with toAcceptedOnlyFields := fields }) hiae he hvalid hissue)
    · have hprofessional := linkEligibilityDiagnosis_professional huser hiae hlink
      have hdiagnosis : d = ctx.lastConsideredValid := congrArg (fun r : JobApplication => r.eligibilityDiagnosis) hprofessional
      rw [hkept.eligibilityDiagnosis, ← hdiagnosis]
      exact hd

theorem accept_links (huser : ctx.user.kind = .professional) (h : r.accept ctx = .ok (r', db)) : Links ctx r r' := by
  obtain ⟨_, r₁, hbody, rfl⟩ := perform_ok h
  have happroval : (r.beforeTransition ctx.now .accept).approval = r.approval :=
    congrArg AcceptedOnlyFields.approval (beforeTransition_toAcceptedOnlyFields ctx.now .accept r)
  have hlinks := acceptBody_links huser hbody
  exact ⟨fun hother => (hlinks.other hother).trans happroval, hlinks.reused, hlinks.diagnosis⟩

theorem confirmAcceptance_links (huser : ctx.user.kind = .professional) {form : AcceptForm} {facts : Facts}
    {creating : Bool} (h : State.confirmAcceptance ctx form facts creating r = .ok (r', db)) : Links ctx r r' := by
  obtain ⟨r₁, hfill, h⟩ := bind_eq_ok.mp h
  have hprocessed : ∃ r₂, SameApplication r r₂ ∧ r₂.accept ctx = .ok (r', db) := by
    cases creating with
    | false => exact ⟨r₁, fillAcceptForm_same hfill, h⟩
    | true =>
        obtain ⟨r₂, hprocess, haccept⟩ := bind_eq_ok.mp h
        exact ⟨r₂, (fillAcceptForm_same hfill).trans (process_same hprocess), haccept⟩
  obtain ⟨r₂, hsame, haccept⟩ := hprocessed
  have hlinks := accept_links huser haccept
  refine ⟨fun hother => ?_, fun hiae => ?_, fun hiae => ?_⟩
  · rw [← hsame.approval]
    exact hlinks.other (hsame.toCompany ▸ hother)
  · rw [← hsame.jobSeeker]
    exact hlinks.reused (hsame.toCompany ▸ hiae)
  · exact hlinks.diagnosis (hsame.toCompany ▸ hiae)

namespace State

variable (s : State) (facts : Facts) (company : Company) (jobSeeker : User)

/-! ## The answers -/

variable {s facts company jobSeeker}

/-- The diagnosis that counts is of a prescriber, whenever the company is sanctioned. -/
theorem prescriberFirst_iff : s.PrescriberFirst facts company jobSeeker ↔
    (s.isSuspended company.pk = true →
      ∀ d ∈ s.eligibilityDiagnosis facts company jobSeeker, d.isFromPrescriber = true) := by
  unfold PrescriberFirst eligibilityDiagnosis
  by_cases hiae : company.isSubjectToIaeRules = true
  · simp only [hiae, forall_const, if_true]
    refine imp_congr_right fun _ => ?_
    constructor
    · intro h d hd
      have hmem := lastConsideredValid_mem hd
      refine (lastConsideredValid_fromPrescriber hd).mpr ?_
      by_cases hprescriber : d.isFromPrescriber = true
      · exact ⟨d, hmem, hprescriber⟩
      · exact h d hmem (Bool.not_eq_true _ ▸ hprescriber)
    · intro h d hd _
      cases hlast : s.lastConsideredValid facts jobSeeker (some company.pk) with
      | none =>
          rw [consideredValid, lastConsideredValid_eq_none hlast] at hd
          cases hd
      | some last => exact (lastConsideredValid_fromPrescriber hlast).mp (h last hlast)
  · simp [hiae]

theorem isSubjectToIaeRules_of_needed (h : s.isIaeEligibilityDiagnosisNeeded facts company jobSeeker = true) :
    company.isSubjectToIaeRules = true := by
  simp only [isIaeEligibilityDiagnosisNeeded, Bool.and_eq_true] at h
  exact h.1.1

/-- The accept wizard looks at the sanction in its eligibility view only. -/
theorem acceptWizardAnswer_eq : s.acceptWizardAnswer facts company jobSeeker =
    if s.isIaeEligibilityDiagnosisNeeded facts company jobSeeker && s.isSuspended company.pk then .suspended
    else .proceed := by
  simp only [acceptWizardAnswer, confirmationForAccept, eligibilityForAccept, eligibilityForEmployer]
  cases hneeded : s.isIaeEligibilityDiagnosisNeeded facts company jobSeeker with
  | false => rfl
  | true => simp [isSubjectToIaeRules_of_needed hneeded]

/-- The hire wizard looks at it in each view. -/
theorem hireWizardAnswer_eq : s.hireWizardAnswer facts company jobSeeker =
    if (s.isIaeEligibilityDiagnosisNeeded facts company jobSeeker ||
        (s.eligibilityDiagnosis facts company jobSeeker).any fun d => !d.isFromPrescriber) &&
      s.isSuspended company.pk then .suspended
    else .proceed := by
  cases hsuspended : s.isSuspended company.pk with
  | false =>
      simp only [hireWizardAnswer, confirmationForHire, hireWizard, eligibilityForHire, eligibilityForEmployer,
        hsuspended, Bool.and_false, Bool.false_eq_true, if_false]
      cases hneeded : s.isIaeEligibilityDiagnosisNeeded facts company jobSeeker with
      | false => rfl
      | true => simp [isSubjectToIaeRules_of_needed hneeded]
  | true =>
      simp only [hireWizardAnswer, confirmationForHire, hireWizard, hsuspended, Bool.and_true]
      cases hneeded : s.isIaeEligibilityDiagnosisNeeded facts company jobSeeker with
      | true => simp
      | false =>
          cases (s.eligibilityDiagnosis facts company jobSeeker).any fun d => !d.isFromPrescriber with
          | true => rfl
          | false => rfl

/-- The wizards answer the same exactly when the diagnosis of a prescriber comes first. -/
theorem sameAnswer_iff : s.SameAnswer facts company jobSeeker ↔ s.PrescriberFirst facts company jobSeeker := by
  rw [SameAnswer, acceptWizardAnswer_eq, hireWizardAnswer_eq, prescriberFirst_iff]
  cases hsuspended : s.isSuspended company.pk with
  | false => simp
  | true =>
      cases hdiagnosis : s.eligibilityDiagnosis facts company jobSeeker with
      | none => simp
      | some d =>
          have hneeded : s.isIaeEligibilityDiagnosisNeeded facts company jobSeeker = false := by
            simp [isIaeEligibilityDiagnosisNeeded, hdiagnosis]
          cases hprescriber : d.isFromPrescriber with
          | true => simp [hneeded, hprescriber]
          | false => simp [hneeded, hprescriber]

/-! ## The acceptances -/

theorem mem_approvals_of_latestApproval {today : Int} {waitingPeriodEnd : Int → Int} {db : Db} {e : Nat × Approval}
    (h : db.latestApproval today waitingPeriodEnd jobSeeker = some e) : e.1 ∈ db.approvals :=
  AList.lookup_isSome.mp (Option.isSome_of_eq_some (Approvals.lookup_of_latestApproval h))

/-- A confirmation that needs no diagnosis, and whose diagnosis is of a prescriber, does not self-prescribe. -/
theorem prescribedByOthers_of_links {request : Request} {r : JobApplication} {outcome : JobApplication × Db}
    (hlinks : Links (s.context request facts r.toCompany r.jobSeeker) r outcome.1)
    (hneeded : s.isIaeEligibilityDiagnosisNeeded facts r.toCompany r.jobSeeker = false)
    (hfirst : s.PrescriberFirst facts r.toCompany r.jobSeeker) : s.PrescribedByOthers r outcome := by
  intro hsuspended
  by_cases hiae : r.toCompany.isSubjectToIaeRules = true
  · cases hvalid : s.hasValidApproval facts r.jobSeeker with
    | true =>
        obtain ⟨e, he, hvalid⟩ := (Option.any_eq_true _ _).mp hvalid
        exact Or.inl ⟨e.1, hlinks.reused hiae e he hvalid, mem_approvals_of_latestApproval he⟩
    | false =>
        obtain ⟨d, hd⟩ : ∃ d, s.lastConsideredValid facts r.jobSeeker (some r.toCompany.pk) = some d := by
          refine Option.ne_none_iff_exists'.mp fun hnone => ?_
          simp [isIaeEligibilityDiagnosisNeeded, eligibilityDiagnosis, hiae, hvalid, hnone] at hneeded
        have heligibility : s.eligibilityDiagnosis facts r.toCompany r.jobSeeker = some d := by
          rw [eligibilityDiagnosis, if_pos hiae, hd]
        refine Or.inr (Or.inl ⟨d, ?_, ?_, prescriberFirst_iff.mp hfirst hsuspended d heligibility⟩)
        · exact List.mem_of_mem_filter (List.mem_of_mem_filter (lastConsideredValid_mem hd))
        · exact (hlinks.diagnosis hiae).trans (congrArg (Option.map EligibilityDiagnosis.pk) hd)
  · exact Or.inr (Or.inr ⟨Bool.not_eq_true _ ▸ hiae, hlinks.other (Bool.not_eq_true _ ▸ hiae)⟩)

/-! ## The confirmations -/

theorem confirmationForAccept_eq_proceed (h : s.confirmationForAccept facts company jobSeeker = .proceed) :
    s.isIaeEligibilityDiagnosisNeeded facts company jobSeeker = false := by
  unfold confirmationForAccept at h
  split at h
  · cases h
  · rename_i hneeded
    exact Bool.not_eq_true _ ▸ hneeded

theorem confirmationForHire_eq_proceed (h : s.confirmationForHire facts company jobSeeker = .proceed) :
    s.isIaeEligibilityDiagnosisNeeded facts company jobSeeker = false := by
  unfold confirmationForHire hireWizard at h
  split at h
  · cases h
  · split at h
    · cases h
    · rename_i hneeded
      exact Bool.not_eq_true _ ▸ hneeded

theorem toOption_eq_some {α : Type} {x : Except TransitionError α} {a : α} (h : x.toOption = some a) : x = .ok a := by
  cases x with
  | error _ => cases h
  | ok _ => exact congrArg Except.ok (Option.some.inj h)

theorem acceptConfirmation_prescribed {request : Request} {pk : Nat} {form : AcceptForm} {r : JobApplication}
    {outcome : JobApplication × Db} (hr : s.acceptWizardSetup request facts pk = some r)
    (hfirst : s.PrescriberFirst facts r.toCompany r.jobSeeker)
    (h : s.acceptConfirmation request facts pk form = some outcome) : s.PrescribedByOthers r outcome := by
  simp only [acceptConfirmation, hr, Option.bind_eq_bind, Option.bind_some] at h
  split at h
  · rename_i hproceed
    exact prescribedByOthers_of_links (confirmAcceptance_links rfl (toOption_eq_some h))
      (confirmationForAccept_eq_proceed hproceed) hfirst
  · cases h

theorem hireConfirmation_prescribed {request : Request} {pk : Nat} {form : AcceptForm}
    {outcome : JobApplication × Db} (hcompany : s.hireWizardSetup request facts jobSeeker = some company)
    (hfirst : s.PrescriberFirst facts company jobSeeker)
    (h : s.hireConfirmation request facts jobSeeker pk form = some outcome) :
    s.PrescribedByOthers (s.newJobApplication request pk company jobSeeker) outcome := by
  simp only [hireConfirmation, hcompany, Option.bind_eq_bind, Option.bind_some] at h
  split at h
  · rename_i hproceed
    exact prescribedByOthers_of_links (r := s.newJobApplication request pk company jobSeeker)
      (confirmAcceptance_links rfl (toOption_eq_some h)) (confirmationForHire_eq_proceed hproceed) hfirst
  · cases h

/-- The law of one step. -/
theorem noSelfPrescription_iff (action : Action) : s.NoSelfPrescription action ↔ s.HasPrescriber action := by
  cases action with
  | acceptConfirmation request facts pk form =>
      refine forall₂_congr fun r hr => ⟨fun h => sameAnswer_iff.mp h.2, fun hfirst => ⟨?_, sameAnswer_iff.mpr hfirst⟩⟩
      exact fun outcome houtcome => acceptConfirmation_prescribed hr hfirst houtcome
  | hireConfirmation request facts jobSeeker pk form =>
      refine forall₂_congr fun company hcompany =>
        ⟨fun h => sameAnswer_iff.mp h.2, fun hfirst => ⟨?_, sameAnswer_iff.mpr hfirst⟩⟩
      exact fun outcome houtcome => hireConfirmation_prescribed hcompany hfirst houtcome
  | acceptEligibility request facts pk => exact Iff.rfl
  | hireEligibility request facts jobSeeker => exact Iff.rfl
  | prescriberEligibility request facts jobSeeker shrouded => exact Iff.rfl
  | others _ => exact Iff.rfl

end State

end Itou.Hirings
