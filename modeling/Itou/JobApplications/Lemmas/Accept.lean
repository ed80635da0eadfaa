import Itou.JobApplications.Accept

/-!
# What a transition does to the row

It writes fields of `ACCEPTED_ONLY_FIELDS` only, it never links both kinds of diagnoses, and it does not
fail on a constraint of the table.

What a transition leaves as it is, and why the row that it saves satisfies the constraints of its table.

One lemma for each question that the theorems ask of a step: does the row stay coherent, and what happens to
the fields of the contract and to the answers.
-/

namespace Itou.JobApplications

open Itou.Lib
open Itou.Approvals (Approval Db)

/-! ## What the body of `accept` does -/

namespace JobApplication

variable {ctx : AcceptContext} {r r' : JobApplication}

/-- `r'` is `r` with other fields of an acceptance, and the same diagnoses. -/
structure KeepsDiagnoses (r r' : JobApplication) : Prop where
  fields : ∃ fields, r' = { r with toAcceptedOnlyFields := fields }
  eligibilityDiagnosis : r'.eligibilityDiagnosis = r.eligibilityDiagnosis
  geiqEligibilityDiagnosis : r'.geiqEligibilityDiagnosis = r.geiqEligibilityDiagnosis

theorem KeepsDiagnoses.refl (r : JobApplication) : KeepsDiagnoses r r := ⟨⟨_, rfl⟩, rfl, rfl⟩

theorem KeepsDiagnoses.trans {r₁ r₂ r₃ : JobApplication} (h₁ : KeepsDiagnoses r₁ r₂)
    (h₂ : KeepsDiagnoses r₂ r₃) : KeepsDiagnoses r₁ r₃ := by
  obtain ⟨⟨fields₁, rfl⟩, hd₁, hg₁⟩ := h₁
  obtain ⟨⟨fields₂, rfl⟩, hd₂, hg₂⟩ := h₂
  exact ⟨⟨fields₂, rfl⟩, hd₂.trans hd₁, hg₂.trans hg₁⟩

/-! ## The parts of the body -/

theorem linkEligibilityDiagnosis_ok (h : r.linkEligibilityDiagnosis ctx = .ok r') :
    (∃ d, r' = { r with eligibilityDiagnosis := d }) ∧
      (r.toCompany.isSubjectToIaeRules = false → r' = r) := by
  unfold linkEligibilityDiagnosis at h
  split at h
  · rename_i hiae
    refine ⟨?_, fun hnot => by simp [hnot] at hiae⟩
    split at h
    · split at h
      · cases h; exact ⟨_, rfl⟩
      · cases h
    · cases h; exact ⟨_, rfl⟩
  · cases h; exact ⟨⟨_, rfl⟩, fun _ => rfl⟩

theorem createApproval_ok {hiringStartAt : Int} {db : Db}
    (h : r.createApproval ctx hiringStartAt = .ok (r', db)) : KeepsDiagnoses r r' := by
  unfold createApproval at h
  split at h
  · split at h
    · cases h
    · split at h
      · cases h
      · cases h; exact ⟨⟨_, rfl⟩, rfl, rfl⟩
  · cases h; exact ⟨⟨_, rfl⟩, rfl, rfl⟩

theorem reuseApproval_ok {hiringStartAt : Int} {id : Nat} {a : Approval} {db : Db}
    (h : r.reuseApproval ctx hiringStartAt id a = .ok (r', db)) : KeepsDiagnoses r r' := by
  unfold reuseApproval at h
  split at h
  · cases h
  · cases h; exact ⟨⟨_, rfl⟩, rfl, rfl⟩

theorem issueApproval_ok {hiringStartAt : Int} {db : Db}
    (h : r.issueApproval ctx hiringStartAt = .ok (r', db)) : KeepsDiagnoses r r' := by
  unfold issueApproval at h
  split at h
  · split at h
    · split at h
      · exact reuseApproval_ok h
      · split at h
        · cases h
        · exact createApproval_ok h
    · exact createApproval_ok h
  · cases h; exact .refl r

theorem deliverApproval_ok {hiringStartAt : Int} {db db' : Db}
    (h : r.deliverApproval ctx hiringStartAt db = .ok (r', db')) : KeepsDiagnoses r r' := by
  unfold deliverApproval at h
  split at h
  · cases h; exact .refl r
  · split at h
    · cases h
    · cases h; exact ⟨⟨_, rfl⟩, rfl, rfl⟩

/-! ## The body -/

/-- From a row without fields of an acceptance, the body writes such fields only, and not both diagnoses: no
company is an SIAE and a GEIQ. -/
theorem acceptBody_ok {db : Db} (hfields : r.toAcceptedOnlyFields = {})
    (h : r.acceptBody ctx = .ok (r', db)) :
    (∃ fields, r' = { r with toAcceptedOnlyFields := fields }) ∧ r'.diagnosesCoherence = true := by
  unfold acceptBody at h
  split at h
  · cases h
  · rename_i hiringStartAt _
    obtain ⟨r₁, hlink, h⟩ := bind_eq_ok.mp h
    obtain ⟨⟨r₂, db₁⟩, hissue, hdeliver⟩ := bind_eq_ok.mp h
    obtain ⟨⟨d, rfl⟩, hsame⟩ := linkEligibilityDiagnosis_ok hlink
    have hnone : r.eligibilityDiagnosis = none ∧ r.geiqEligibilityDiagnosis = none := by
      constructor <;> rw [hfields]
    obtain ⟨⟨fields, rfl⟩, hd, hg⟩ := (issueApproval_ok hissue).trans (deliverApproval_ok hdeliver)
    rw [diagnosesCoherence, hd, hg]
    unfold linkGeiqEligibilityDiagnosis
    by_cases hgeiq : r.toCompany.kind = .geiq
    · have hr := hsame (Company.not_isSubjectToIaeRules_of_geiq hgeiq)
      rw [if_pos hgeiq, hr]
      exact ⟨⟨fields, rfl⟩, by simp [hnone.1]⟩
    · rw [if_neg hgeiq]
      exact ⟨⟨fields, rfl⟩, by simp [hnone.2]⟩

/-! ## Its errors -/

theorem linkEligibilityDiagnosis_ne {c : String} :
    r.linkEligibilityDiagnosis ctx ≠ .error (.integrityError c) := by
  intro h
  unfold linkEligibilityDiagnosis at h
  split at h
  · split at h
    · split at h <;> cases h
    · cases h
  · cases h

theorem createApproval_ne {hiringStartAt : Int} {c : String} :
    r.createApproval ctx hiringStartAt ≠ .error (.integrityError c) := by
  intro h
  unfold createApproval at h
  split at h
  · split at h
    · cases h
    · split at h <;> cases h
  · cases h

theorem issueApproval_ne {hiringStartAt : Int} {c : String} :
    r.issueApproval ctx hiringStartAt ≠ .error (.integrityError c) := by
  intro h
  unfold issueApproval at h
  split at h
  · split at h
    · split at h
      · unfold reuseApproval at h
        split at h <;> cases h
      · split at h
        · cases h
        · exact createApproval_ne h
    · exact createApproval_ne h
  · cases h

theorem deliverApproval_ne {hiringStartAt : Int} {db : Db} {c : String} :
    r.deliverApproval ctx hiringStartAt db ≠ .error (.integrityError c) := by
  intro h
  unfold deliverApproval at h
  split at h
  · cases h
  · split at h <;> cases h

/-- The body itself never fails on a constraint of the table: only the save after it could. -/
theorem acceptBody_ne {c : String} : r.acceptBody ctx ≠ .error (.integrityError c) := by
  intro h
  unfold acceptBody at h
  split at h
  · cases h
  · rcases bind_eq_error.mp h with h | ⟨r₁, _, h⟩
    · exact linkEligibilityDiagnosis_ne h
    · rcases bind_eq_error.mp h with h | ⟨⟨r₂, db⟩, _, h⟩
      · exact issueApproval_ne h
      · exact deliverApproval_ne h

end JobApplication

/-! ## The constraints along the workflow -/

universe u

namespace JobApplication

/-- The constraints one by one. -/
theorem coherent_iff (r : JobApplication) : r.Coherent ↔
    r.geiqFieldsCoherence = true ∧ r.diagnosesCoherence = true ∧ r.qualificationCoherence = true ∧
      r.processedCoherence = true ∧ r.archivedStatus = true ∧ r.archivedByNoArchivedAt = true ∧
      r.jobSeekerSenderCoherence = true ∧ r.employerSenderCoherence = true ∧
      r.prescriberSenderCoherence = true ∧ r.acceptedOnlyFields = true := by
  simp [Coherent, constraints]

/-- The fields that the constraints read and that no body of a transition writes. -/
structure KeepsFrame (r₀ r₁ : JobApplication) : Prop where
  contract : r₁.toContractFields = r₀.toContractFields
  qualificationType : r₁.qualificationType = r₀.qualificationType
  qualificationLevel : r₁.qualificationLevel = r₀.qualificationLevel
  processedAt : r₁.processedAt = r₀.processedAt
  archivedAt : r₁.archivedAt = r₀.archivedAt
  archivedBy : r₁.archivedBy = r₀.archivedBy
  jobSeeker : r₁.jobSeeker = r₀.jobSeeker
  sender : r₁.sender = r₀.sender
  senderKind : r₁.senderKind = r₀.senderKind
  senderCompany : r₁.senderCompany = r₀.senderCompany
  senderPrescriberOrganization : r₁.senderPrescriberOrganization = r₀.senderPrescriberOrganization

theorem Coherent.acceptedOnlyFields_eq {r : JobApplication} (h : r.Coherent) (hstate : r.state ≠ .accepted) :
    r.toAcceptedOnlyFields = {} := by
  have hfields := ((coherent_iff r).mp h).2.2.2.2.2.2.2.2.2
  simpa [acceptedOnlyFields, hstate] using hfields

/-! ## Hooks -/

@[simp] theorem beforeTransition_toAcceptedOnlyFields (now : DateTime) (t : Transition) (r : JobApplication) :
    (r.beforeTransition now t).toAcceptedOnlyFields = r.toAcceptedOnlyFields := by
  cases t <;> rfl

@[simp] theorem beforeTransition_toContractFields (now : DateTime) (t : Transition) (r : JobApplication) :
    (r.beforeTransition now t).toContractFields = r.toContractFields := by
  cases t <;> rfl

@[simp] theorem beforeTransition_toCompany (now : DateTime) (t : Transition) (r : JobApplication) :
    (r.beforeTransition now t).toCompany = r.toCompany := by
  cases t <;> rfl

/-- The hooks leave the other fields that the constraints read. -/
theorem beforeTransition_frame (now : DateTime) (t : Transition) (r : JobApplication) :
    let r₀ := r.beforeTransition now t
    r₀.qualificationType = r.qualificationType ∧ r₀.qualificationLevel = r.qualificationLevel ∧
      r₀.jobSeeker = r.jobSeeker ∧ r₀.sender = r.sender ∧ r₀.senderKind = r.senderKind ∧
      r₀.senderCompany = r.senderCompany ∧
      r₀.senderPrescriberOrganization = r.senderPrescriberOrganization := by
  cases t <;> exact ⟨rfl, rfl, rfl, rfl, rfl, rfl, rfl⟩

/-- The two hook lists on `processed_at` agree with the states that the transitions lead to. No hook runs
before `external_transfer`, which stays in `refused`. -/
theorem beforeTransition_processedAt (now : DateTime) {t : Transition} {r : JobApplication}
    (hr : r.Coherent) (hsource : r.state ∈ t.sources) :
    if t.target ∈ processedStates then (r.beforeTransition now t).processedAt.isSome = true
    else (r.beforeTransition now t).processedAt.isNone = true := by
  have hprocessed := ((coherent_iff r).mp hr).2.2.2.1
  cases t with
  | externalTransfer =>
      have hrefused : r.state = .refused := by simpa [Transition.sources] using hsource
      change r.processedAt.isSome = true
      simpa [processedCoherence, hrefused, processedStates] using hprocessed
  | _ => rfl

/-- The hook list on the archive covers all the transitions that leave an archivable state. -/
theorem beforeTransition_archivedAt (now : DateTime) {t : Transition} {r : JobApplication}
    (hr : r.Coherent) (hsource : r.state ∈ t.sources) :
    ((t.target = .accepted ∨ t.target = .priorToHire) → (r.beforeTransition now t).archivedAt = none) ∧
      ((r.beforeTransition now t).archivedAt = none → (r.beforeTransition now t).archivedBy = none) := by
  have harchivedBy := ((coherent_iff r).mp hr).2.2.2.2.2.1
  cases t with
  | externalTransfer =>
      refine ⟨fun htarget => by simp [Transition.target] at htarget, fun hnone => ?_⟩
      change r.archivedAt = none at hnone
      change r.archivedBy = none
      simpa [archivedByNoArchivedAt, hnone] using harchivedBy
  | _ => exact ⟨fun _ => rfl, fun _ => rfl⟩

/-! ## The saved row -/

/-- A transition from a coherent row saves a coherent row, when its body keeps the frame and leaves
diagnoses and other fields of an acceptance in order. -/
theorem coherent_saved (now : DateTime) {t : Transition} {r r₁ : JobApplication} (hr : r.Coherent)
    (hsource : r.state ∈ t.sources) (hframe : KeepsFrame (r.beforeTransition now t) r₁)
    (hdiagnoses : r₁.diagnosesCoherence = true)
    (haccepted : t.target = .accepted ∨ r₁.toAcceptedOnlyFields = {}) :
    (JobApplication.touch now { r₁ with state := t.target }).Coherent := by
  obtain ⟨hgeiq, _, hqualification, _, _, _, hjobSeeker, hemployer, hprescriber, _⟩ := (coherent_iff r).mp hr
  obtain ⟨hqt, hql, hjs, hsender, hkind, hcompany, horganization⟩ := beforeTransition_frame now t r
  have hcontract := hframe.contract.trans (beforeTransition_toContractFields now t r)
  have hprocessed := beforeTransition_processedAt now hr hsource
  obtain ⟨harchived, harchivedBy⟩ := beforeTransition_archivedAt now hr hsource
  change ({ r₁ with state := t.target, updatedAt := now } : JobApplication).Coherent
  rw [coherent_iff]
  refine ⟨?_, hdiagnoses, ?_, ?_, ?_, ?_, ?_, ?_, ?_, ?_⟩
  · unfold geiqFieldsCoherence at hgeiq ⊢
    rw [← hcontract] at hgeiq
    exact hgeiq
  · unfold qualificationCoherence at hqualification ⊢
    rw [← hqt, ← hql, ← hframe.qualificationType, ← hframe.qualificationLevel] at hqualification
    exact hqualification
  · unfold processedCoherence
    rw [← hframe.processedAt] at hprocessed
    split at hprocessed <;> simp_all
  · unfold archivedStatus
    rw [← hframe.archivedAt] at harchived
    by_cases htarget : t.target = .accepted ∨ t.target = .priorToHire
    · simp [harchived htarget]
    · rw [not_or] at htarget
      simp [htarget.1, htarget.2]
  · unfold archivedByNoArchivedAt
    rw [← hframe.archivedAt, ← hframe.archivedBy] at harchivedBy
    cases hat : r₁.archivedAt with
    | none => simp [harchivedBy hat]
    | some at_ => simp
  · unfold jobSeekerSenderCoherence at hjobSeeker ⊢
    rw [← hjs, ← hsender, ← hkind, ← hframe.jobSeeker, ← hframe.sender, ← hframe.senderKind] at hjobSeeker
    exact hjobSeeker
  · unfold employerSenderCoherence at hemployer ⊢
    rw [← hkind, ← hcompany, ← horganization, ← hframe.senderKind, ← hframe.senderCompany,
      ← hframe.senderPrescriberOrganization] at hemployer
    exact hemployer
  · unfold prescriberSenderCoherence at hprescriber ⊢
    rw [← hkind, ← hcompany, ← hframe.senderKind, ← hframe.senderCompany] at hprescriber
    exact hprescriber
  · unfold acceptedOnlyFields
    rcases haccepted with htarget | hfields
    · simp [htarget]
    · simp [hfields]

/-! ## Calls -/

/-- A body that a coherent row can go through: it raises no error of the database, and it leaves a row that can
be saved. -/
structure SafeBody {α : Type u} (now : DateTime) (t : Transition) (r : JobApplication)
    (body : JobApplication → Except TransitionError (JobApplication × α)) : Prop where
  no_integrityError : ∀ c, body (r.beforeTransition now t) ≠ .error (.integrityError c)
  frame : ∀ r₁ a, body (r.beforeTransition now t) = .ok (r₁, a) → KeepsFrame (r.beforeTransition now t) r₁
  diagnoses : ∀ r₁ a, body (r.beforeTransition now t) = .ok (r₁, a) → r₁.diagnosesCoherence = true
  accepted : ∀ r₁ a, body (r.beforeTransition now t) = .ok (r₁, a) →
    t.target = .accepted ∨ r₁.toAcceptedOnlyFields = {}

/-- Neither an error of the database nor a row that is not coherent. -/
def Safe {α : Type u} (outcome : Except TransitionError (JobApplication × α)) : Prop :=
  (∀ c, outcome ≠ .error (.integrityError c)) ∧ ∀ r a, outcome = .ok (r, a) → r.Coherent

theorem perform_safe {α : Type u} {now : DateTime} {t : Transition} {r : JobApplication}
    {body : JobApplication → Except TransitionError (JobApplication × α)} (hr : r.Coherent)
    (hbody : r.state ∈ t.sources → SafeBody now t r body) : Safe (perform now t body r) := by
  unfold perform
  split
  · rename_i hsource
    have hsafe := hbody hsource
    cases hrun : body (r.beforeTransition now t) with
    | error e => exact ⟨fun c h => hsafe.no_integrityError c (hrun.trans h), fun _ _ h => (nomatch h)⟩
    | ok res =>
        obtain ⟨r₁, a⟩ := res
        have hsaved := coherent_saved now hr hsource (hsafe.frame r₁ a hrun)
          (hsafe.diagnoses r₁ a hrun) (hsafe.accepted r₁ a hrun)
        simp only [save, (violation_eq_none_iff _).mpr hsaved]
        refine ⟨fun _ h => (by cases h), fun r a h => ?_⟩
        cases h
        exact hsaved
  · exact ⟨fun _ h => (by cases h), fun _ _ h => (by cases h)⟩

theorem KeepsFrame.of_fields (r : JobApplication) (fields : AcceptedOnlyFields) :
    KeepsFrame r { r with toAcceptedOnlyFields := fields } :=
  ⟨rfl, rfl, rfl, rfl, rfl, rfl, rfl, rfl, rfl, rfl, rfl⟩

theorem diagnosesCoherence_of_default {r : JobApplication} (h : r.toAcceptedOnlyFields = {}) :
    r.diagnosesCoherence = true := by
  have hnone : r.eligibilityDiagnosis = none := by rw [h]
  simp [diagnosesCoherence, hnone]

/-- A transition that only notifies, from a state that is not `accepted`. -/
theorem notifyBody_safe {now : DateTime} {t : Transition} {r : JobApplication} (hr : r.Coherent)
    (hsource : r.state ≠ .accepted) : SafeBody now t r notifyBody := by
  have hfields : (r.beforeTransition now t).toAcceptedOnlyFields = {} := by
    rw [beforeTransition_toAcceptedOnlyFields, hr.acceptedOnlyFields_eq hsource]
  refine ⟨fun _ h => (nomatch h), fun r₁ _ h => ?_, fun r₁ _ h => ?_, fun r₁ _ h => ?_⟩
  · cases h; exact .of_fields _ _
  · cases h; exact diagnosesCoherence_of_default hfields
  · cases h; exact Or.inr hfields

theorem cancelBody_safe (now : DateTime) (employeeRecordSent : Bool) (r : JobApplication) :
    SafeBody now .cancel r (cancelBody employeeRecordSent) := by
  unfold cancelBody
  refine ⟨fun c h => ?_, fun r₁ _ h => ?_, fun r₁ _ h => ?_, fun r₁ _ h => ?_⟩
  · split at h <;> cases h
  · split at h
    · cases h
    · cases h; exact .of_fields _ _
  · split at h
    · cases h
    · cases h; rfl
  · split at h
    · cases h
    · cases h; exact Or.inr rfl

theorem transferBody_safe (now : DateTime) (request : TransferRequest) (r : JobApplication) :
    SafeBody now .transfer r (transferBody now request) := by
  unfold transferBody
  refine ⟨fun c h => ?_, fun r₁ _ h => ?_, fun r₁ _ h => ?_, fun r₁ _ h => ?_⟩
  · split at h <;> cases h
  · split at h
    · cases h
    · cases h; exact ⟨rfl, rfl, rfl, rfl, rfl, rfl, rfl, rfl, rfl, rfl, rfl⟩
  · split at h
    · cases h
    · cases h; rfl
  · split at h
    · cases h
    · cases h; exact Or.inr rfl

theorem acceptBody_safe {now : DateTime} {ctx : AcceptContext} {r : JobApplication} (hr : r.Coherent)
    (hsource : r.state ≠ .accepted) : SafeBody now .accept r (acceptBody ctx) := by
  have hfields : (r.beforeTransition now .accept).toAcceptedOnlyFields = {} := by
    rw [beforeTransition_toAcceptedOnlyFields, hr.acceptedOnlyFields_eq hsource]
  refine ⟨fun _ => acceptBody_ne, fun r₁ _ h => ?_, fun r₁ _ h => (acceptBody_ok hfields h).2,
    fun _ _ _ => Or.inl rfl⟩
  obtain ⟨⟨fields, rfl⟩, _⟩ := acceptBody_ok hfields h
  exact .of_fields _ _

end JobApplication

/-! ## Calls -/

namespace JobApplication

/-! ## The form -/

theorem AcceptForm_fill_toCompany (form : AcceptForm) (r : JobApplication) :
    (form.fill r).toCompany = r.toCompany := by
  unfold AcceptForm.fill
  split <;> rfl

theorem AcceptForm_validateConstraints_ok {r : JobApplication} {u : Unit}
    (h : AcceptForm.validateConstraints r = .ok u) (hgeiq : r.toCompany.kind = .geiq) :
    r.geiqFieldsCoherence = true ∧ r.qualificationCoherence = true := by
  unfold AcceptForm.validateConstraints at h
  rw [if_neg (not_not_intro hgeiq)] at h
  split at h
  · cases h
  · split at h
    · cases h
    · simp_all

/-- A valid form writes its own fields, and checks those of a contract and of a qualification. -/
theorem AcceptForm_save_ok {form : AcceptForm} {ctx : AcceptContext} {farFuture : Int → Int}
    {r r' : JobApplication} (h : form.save ctx farFuture r = .ok r') :
    r' = form.fill r ∧ (r.toCompany.kind = .geiq →
      r'.geiqFieldsCoherence = true ∧ r'.qualificationCoherence = true) := by
  unfold AcceptForm.save at h
  obtain ⟨_, _, h⟩ := bind_eq_ok.mp h
  obtain ⟨_, _, h⟩ := bind_eq_ok.mp h
  obtain ⟨_, _, h⟩ := bind_eq_ok.mp h
  obtain ⟨_, _, h⟩ := bind_eq_ok.mp h
  obtain ⟨_, hvalid, h⟩ := bind_eq_ok.mp h
  cases h
  exact ⟨rfl, fun hgeiq =>
    AcceptForm_validateConstraints_ok hvalid (by rw [AcceptForm_fill_toCompany, hgeiq])⟩

/-- What is left as it is by a form. -/
structure KeepsDecision (r r' : JobApplication) : Prop where
  state : r'.state = r.state
  toCompany : r'.toCompany = r.toCompany
  contract : r'.toContractFields = r.toContractFields ∨ r.toCompany.kind = .geiq

theorem fillAcceptForm_ok {ctx : AcceptContext} {form : Option (AcceptForm × (Int → Int))}
    {r r' : JobApplication} (h : r.fillAcceptForm ctx form = .ok r') :
    KeepsDecision r r' ∧ (r.Coherent → r'.Coherent) := by
  unfold fillAcceptForm at h
  split at h
  · cases h; exact ⟨⟨rfl, rfl, Or.inl rfl⟩, id⟩
  · split at h
    · cases h
    · rename_i form farFuture r₁ hsave
      cases h
      obtain ⟨rfl, hchecked⟩ := AcceptForm_save_ok hsave
      unfold AcceptForm.fill AcceptForm.fillHiring at hchecked ⊢
      by_cases hgeiq : r.toCompany.kind = .geiq
      · simp only [hgeiq, ↓reduceIte, forall_const] at hchecked ⊢
        refine ⟨⟨rfl, rfl, Or.inr hgeiq⟩, fun hr => ?_⟩
        obtain ⟨_, h₂, _, h₄⟩ := (coherent_iff r).mp hr
        exact (coherent_iff _).mpr ⟨hchecked.1, h₂, hchecked.2, h₄⟩
      · simp only [hgeiq, ↓reduceIte] at hchecked ⊢
        exact ⟨⟨rfl, rfl, Or.inl rfl⟩, id⟩

/-! ## Coherence -/

theorem Safe.map_fst {α : Type u} {outcome : Except TransitionError (JobApplication × α)} (h : Safe outcome) :
    (∀ c, outcome.map Prod.fst ≠ .error (.integrityError c)) ∧
      ∀ r, outcome.map Prod.fst = .ok r → r.Coherent := by
  refine ⟨fun c hc => h.1 c (map_eq_error.mp hc), fun r hr => ?_⟩
  obtain ⟨⟨r', a⟩, hok, rfl⟩ := map_eq_ok.mp hr
  exact h.2 r' a hok

theorem perform_notifyBody_safe {now : DateTime} {t : Transition} {r : JobApplication} (hr : r.Coherent)
    (hsources : .accepted ∉ t.sources) : Safe (perform now t notifyBody r) :=
  perform_safe hr fun hsource => notifyBody_safe hr fun haccepted => hsources (haccepted ▸ hsource)

/-- From a coherent row, no call fails on a constraint, and the row that a call saves is coherent. -/
theorem attempt_safe {now : DateTime} {r : JobApplication} {c : Call} (hr : r.Coherent) :
    (∀ k, r.attempt now c ≠ .error (.integrityError k)) ∧ ∀ r', r.attempt now c = .ok r' → r'.Coherent := by
  cases c with
  | process => exact (perform_notifyBody_safe hr (by decide)).map_fst
  | postpone answer => exact (perform_notifyBody_safe (r := { r with answer }) hr (by decide)).map_fst
  | accept ctx form =>
      simp only [attempt]
      cases hform : r.fillAcceptForm { ctx with now } form with
      | error e =>
          refine ⟨fun k h => ?_, fun _ h => (nomatch h)⟩
          unfold fillAcceptForm at hform
          split at hform
          · cases hform
          · split at hform
            · cases hform; cases h
            · cases hform
      | ok r₁ =>
          have hr₁ := (fillAcceptForm_ok hform).2 hr
          exact Safe.map_fst (perform_safe hr₁ fun hsource =>
            acceptBody_safe hr₁ fun haccepted => absurd (haccepted ▸ hsource) (by decide))
  | addToPool answer => exact (perform_notifyBody_safe (r := { r with answer }) hr (by decide)).map_fst
  | moveToPriorToHire => exact (perform_notifyBody_safe hr (by decide)).map_fst
  | cancelPriorToHire => exact (perform_notifyBody_safe hr (by decide)).map_fst
  | refuse reason shared answer toPrescriber =>
      exact (perform_notifyBody_safe (t := .refuse) (r := { r with
        refusalReason := reason, refusalReasonSharedWithJobSeeker := shared, answer,
        answerToPrescriber := toPrescriber }) hr (by decide)).map_fst
  | cancel sent => exact Safe.map_fst (perform_safe hr fun _ => cancelBody_safe now sent r)
  | renderObsolete => exact (perform_notifyBody_safe hr (by decide)).map_fst
  | transfer request => exact Safe.map_fst (perform_safe hr fun _ => transferBody_safe now request r)
  | externalTransfer => exact (perform_notifyBody_safe hr (by decide)).map_fst
  | reset => exact (perform_notifyBody_safe hr (by decide)).map_fst

theorem archive_coherent {now : DateTime} {user : Nat} {r r' : JobApplication} (hr : r.Coherent)
    (h : r.archive now user = some r') : r'.Coherent := by
  simp only [archive, Option.ite_none_right_eq_some, Option.some.injEq, Bool.and_eq_true,
    decide_eq_true_eq, archivableStatesManual] at h
  obtain ⟨⟨hstate, _⟩, rfl⟩ := h
  obtain ⟨h₁, h₂, h₃, h₄, _, _, h₇, h₈, h₉, h₁₀⟩ := (coherent_iff r).mp hr
  refine (coherent_iff _).mpr ⟨h₁, h₂, h₃, h₄, ?_, rfl, h₇, h₈, h₉, h₁₀⟩
  unfold archivedStatus
  have hne : r.state ≠ .accepted ∧ r.state ≠ .priorToHire := by
    constructor <;> intro heq <;> simp [heq] at hstate
  simp [hne.1, hne.2]

theorem unarchiveManually_coherent {r r' : JobApplication} (hr : r.Coherent)
    (h : r.unarchiveManually = some r') : r'.Coherent := by
  simp only [unarchiveManually, Option.ite_none_right_eq_some, Option.some.injEq] at h
  obtain ⟨_, rfl⟩ := h
  obtain ⟨h₁, h₂, h₃, h₄, _, _, h₇, h₈, h₉, h₁₀⟩ := (coherent_iff r).mp hr
  exact (coherent_iff _).mpr ⟨h₁, h₂, h₃, h₄, by simp [archivedStatus], rfl, h₇, h₈, h₉, h₁₀⟩

theorem archiveAutomatically_coherent {now : DateTime} {r r' : JobApplication} (hr : r.Coherent)
    (h : r.archiveAutomatically now = some r') : r'.Coherent := by
  simp only [archiveAutomatically, Option.ite_none_right_eq_some, Option.some.injEq, Bool.and_eq_true,
    archivableStates] at h
  obtain ⟨⟨_, hstate⟩, rfl⟩ := h
  obtain ⟨h₁, h₂, h₃, h₄, _, _, h₇, h₈, h₉, h₁₀⟩ := (coherent_iff r).mp hr
  refine (coherent_iff _).mpr ⟨h₁, h₂, h₃, h₄, ?_, by simp [archivedByNoArchivedAt], h₇, h₈, h₉, h₁₀⟩
  unfold archivedStatus
  have hne : r.state ≠ .accepted ∧ r.state ≠ .priorToHire := by
    constructor <;> intro heq <;> simp [heq] at hstate
  simp [hne.1, hne.2]

/-- Each step leaves a coherent row. -/
theorem step_coherent {r r' : JobApplication} {label : DateTime × Action} (hr : r.Coherent)
    (h : r.step label = some r') : r'.Coherent := by
  obtain ⟨now, action⟩ := label
  cases action with
  | call c => exact (attempt_safe hr).2 r' (toOption_eq_some.mp h)
  | archive user => exact archive_coherent hr h
  | unarchive => exact unarchiveManually_coherent hr h
  | archiveAutomatically => exact archiveAutomatically_coherent hr h

/-! ## The contract and the answers -/

theorem save_ok {now : DateTime} {r r' : JobApplication} (h : JobApplication.save now r = .ok r') :
    r' = r.touch now := by
  unfold save at h
  split at h
  · cases h
  · cases h; rfl

theorem perform_ok {α : Type u} {now : DateTime} {t : Transition} {r r' : JobApplication} {a : α}
    {body : JobApplication → Except TransitionError (JobApplication × α)}
    (h : perform now t body r = .ok (r', a)) :
    r.state ∈ t.sources ∧ ∃ r₁, body (r.beforeTransition now t) = .ok (r₁, a) ∧
      r' = JobApplication.touch now { r₁ with state := t.target } := by
  unfold perform at h
  split at h
  · rename_i hsource
    refine ⟨hsource, ?_⟩
    split at h
    · cases h
    · rename_i r₁ a₁ hbody
      split at h
      · cases h
      · rename_i r₂ hsave
        cases h
        exact ⟨r₁, hbody, save_ok hsave⟩
  · cases h

/-- A call keeps the company and the contract, unless the form of a GEIQ writes the contract. -/
def KeepsContract (r r' : JobApplication) : Prop :=
  r'.toCompany = r.toCompany ∧ (r'.toContractFields = r.toContractFields ∨ r.toCompany.kind = .geiq)

theorem perform_keepsContract {α : Type u} {now : DateTime} {t : Transition} {r r' : JobApplication}
    {body : JobApplication → Except TransitionError (JobApplication × α)}
    (hbody : ∀ r₀ r₁ a, r₀.toAcceptedOnlyFields = r.toAcceptedOnlyFields → body r₀ = .ok (r₁, a) →
      ∃ fields, r₁ = { r₀ with toAcceptedOnlyFields := fields })
    (h : (perform now t body r).map Prod.fst = .ok r') : KeepsContract r r' := by
  obtain ⟨⟨r₂, a⟩, hok, rfl⟩ := map_eq_ok.mp h
  obtain ⟨_, r₁, hrun, rfl⟩ := perform_ok hok
  obtain ⟨fields, rfl⟩ := hbody _ _ _ (beforeTransition_toAcceptedOnlyFields now t r) hrun
  exact ⟨beforeTransition_toCompany now t r, Or.inl (beforeTransition_toContractFields now t r)⟩

theorem notify_keepsContract {now : DateTime} {t : Transition} {r r' : JobApplication}
    (h : (perform now t notifyBody r).map Prod.fst = .ok r') : KeepsContract r r' :=
  perform_keepsContract (fun r₀ _ _ _ h => by cases h; exact ⟨r₀.toAcceptedOnlyFields, rfl⟩) h

theorem cancel_keepsContract {now : DateTime} {sent : Bool} {r r' : JobApplication}
    (h : (perform now .cancel (cancelBody sent) r).map Prod.fst = .ok r') : KeepsContract r r' := by
  refine perform_keepsContract (fun r₀ r₁ _ _ h => ?_) h
  unfold cancelBody at h
  split at h
  · cases h
  · cases h; exact ⟨{}, rfl⟩

theorem accept_keepsContract {ctx : AcceptContext} {r r' : JobApplication} (hr : r.Coherent)
    (h : (r.accept ctx).map Prod.fst = .ok r') : KeepsContract r r' := by
  have hsource : r.state ≠ .accepted := by
    obtain ⟨⟨r₂, db⟩, hok, rfl⟩ := map_eq_ok.mp h
    exact fun haccepted => absurd (haccepted ▸ (perform_ok hok).1) (by decide)
  refine perform_keepsContract (fun r₀ r₁ db hfields hrun => ?_) h
  exact (acceptBody_ok (hfields.trans (hr.acceptedOnlyFields_eq hsource)) hrun).1

/-- Only a transfer changes the company, and only the form of a GEIQ the contract. -/
theorem attempt_keepsContract {now : DateTime} {r r' : JobApplication} {c : Call} (hr : r.Coherent)
    (hc : ∀ request, c ≠ .transfer request) (h : r.attempt now c = .ok r') : KeepsContract r r' := by
  cases c with
  | accept ctx form =>
      simp only [attempt] at h
      split at h
      · cases h
      · rename_i r₁ hform
        obtain ⟨⟨_, hcompany, hcontract⟩, hcoherent⟩ := fillAcceptForm_ok hform
        obtain ⟨hcompany', hcontract'⟩ := accept_keepsContract (hcoherent hr) h
        refine ⟨hcompany'.trans hcompany, ?_⟩
        rcases hcontract with hsame | hgeiq
        · rcases hcontract' with hsame' | hgeiq
          · exact Or.inl (hsame'.trans hsame)
          · exact Or.inr (hcompany ▸ hgeiq)
        · exact Or.inr hgeiq
  | cancel sent => exact cancel_keepsContract h
  | transfer request => exact absurd rfl (hc request)
  | postpone answer => exact notify_keepsContract (r := { r with answer }) h
  | addToPool answer => exact notify_keepsContract (r := { r with answer }) h
  | refuse reason shared answer toPrescriber =>
      exact notify_keepsContract (r := { r with
        refusalReason := reason, refusalReasonSharedWithJobSeeker := shared, answer,
        answerToPrescriber := toPrescriber }) h
  | process => exact notify_keepsContract h
  | moveToPriorToHire => exact notify_keepsContract h
  | cancelPriorToHire => exact notify_keepsContract h
  | renderObsolete => exact notify_keepsContract h
  | externalTransfer => exact notify_keepsContract h
  | reset => exact notify_keepsContract h

theorem step_archive_keepsContract {r r' : JobApplication} {now : DateTime} {action : Action}
    (haction : ∀ c, action ≠ .call c) (h : r.step (now, action) = some r') : KeepsContract r r' := by
  cases action with
  | call c => exact absurd rfl (haction c)
  | archive user =>
      simp only [step, archive, Option.ite_none_right_eq_some, Option.some.injEq] at h
      obtain ⟨_, rfl⟩ := h
      exact ⟨rfl, Or.inl rfl⟩
  | unarchive =>
      simp only [step, unarchiveManually, Option.ite_none_right_eq_some, Option.some.injEq] at h
      obtain ⟨_, rfl⟩ := h
      exact ⟨rfl, Or.inl rfl⟩
  | archiveAutomatically =>
      simp only [step, archiveAutomatically, Option.ite_none_right_eq_some, Option.some.injEq] at h
      obtain ⟨_, rfl⟩ := h
      exact ⟨rfl, Or.inl rfl⟩

/-- A transfer empties the two answers, and leaves the contract and the refusal reason as they are. -/
theorem attempt_transfer {now : DateTime} {request : TransferRequest} {r r' : JobApplication}
    (h : r.attempt now (.transfer request) = .ok r') :
    r'.toCompany = request.targetCompany ∧ r'.answer = "" ∧ r'.answerToPrescriber = "" ∧
      r'.toContractFields = r.toContractFields ∧ r'.refusalReason = r.refusalReason := by
  obtain ⟨⟨r₂, a⟩, hok, rfl⟩ := map_eq_ok.mp h
  obtain ⟨_, r₁, hrun, rfl⟩ := perform_ok hok
  unfold transferBody at hrun
  split at hrun
  · cases hrun
  · cases hrun
    exact ⟨rfl, rfl, rfl, rfl, rfl⟩

end JobApplication

end Itou.JobApplications
