import Itou.GeiqAssessments.Days
import Itou.GeiqAssessments.Lemmas.Create
import Itou.GeiqAssessments.Lemmas.Sync
import Itou.GeiqAssessments.Lemmas.Views

/-!
# Theorems on GEIQ assessments
-/

namespace Itou.GeiqAssessments

open Itou.Lib

variable {s s' : State} {request : Request}

/-! ## Requests -/

namespace State

def Inv (s : State) : Prop := s.assessment.Inv s.clock

theorem start_inv (companies institutions : List Nat) (createdAt : DateTime) :
    (start companies institutions createdAt).Inv :=
  Assessment.create_inv companies institutions createdAt

theorem step_eq_some : s.step request = some s' ↔ s.clock ≤ request.now ∧ s'.clock = request.now ∧
    (s.assessment.exec request = .ok s'.assessment ∨
      s'.assessment = s.assessment ∧ ∃ failure, s.assessment.exec request = .error failure) := by
  unfold step
  split
  · rename_i hnow
    cases hexec : s.assessment.exec request with
    | ok assessment =>
        constructor
        · intro h
          cases h
          exact ⟨hnow, rfl, Or.inl rfl⟩
        · rintro ⟨_, hclock, h | ⟨_, failure, h⟩⟩
          · cases h
            rw [← hclock]
          · cases h
    | error failure =>
        constructor
        · intro h
          cases h
          exact ⟨hnow, rfl, Or.inr ⟨rfl, failure, rfl⟩⟩
        · rintro ⟨_, hclock, h | ⟨hassessment, _⟩⟩
          · cases h
          · rw [← hclock, ← hassessment]
  · rename_i hnow
    exact ⟨nofun, fun h => absurd h.1 hnow⟩

/-- When nothing is missing, the request is answered. -/
theorem Inv.answers (h : s.Inv) (hnow : s.clock ≤ request.now) (hmissing : s.NothingMissing request) :
    Answers s.assessment request.now request.operation.fix (s.assessment.exec request) := by
  obtain ⟨now, requester, operation⟩ := request
  cases operation with
  | assessmentDetailsForGeiq => exact forGeiq_answers fun user => assessmentDetailsForGeiq_answers h hnow user
  | assessmentSyncFile field retrieved =>
      exact forGeiq_answers fun _ => assessmentSyncFile_answers h hnow field retrieved
  | uploadActionFinancialAssessment file =>
      exact forGeiq_answers fun _ => uploadActionFinancialAssessment_answers h hnow file
  | assessmentComment comment => exact forGeiq_answers fun _ => assessmentComment_answers h hnow comment
  | assessmentContractsSync infos => exact forGeiq_answers fun _ => assessmentContractsSync_answers h hnow infos
  | assessmentContractsList action =>
      cases requester with
      | employer user company kind isAdmin =>
          change Answers _ _ _ (ite _ _ _)
          split
          · rename_i haccess
            split
            · rename_i hcompany
              refine contractsListFromEmployer_answers h hnow ?_
              rintro rfl
              exact hmissing haccess.1 haccess.2 hcompany
            · exact .refuse id
          · exact .refuse id
      | institution user institution kind =>
          have hview : Answers s.assessment now none (s.assessment.forInstitution (.institution user institution kind)
              fun _ _ _ => s.assessment.contractsListFromInstitution now action) :=
            forInstitution_answers fun _ _ _ => contractsListFromInstitution_answers h hnow action
          exact hview
      | other => exact .refuse id
  | assessmentContractsDetails pk tab action justification refusal =>
      exact forBoth_answers (fun _ => contractsDetailsFromEmployer_answers h hnow pk tab justification)
        fun _ _ _ => contractsDetailsFromInstitution_answers h hnow pk tab action refusal
  | assessmentContractsToggle pk newValue =>
      exact forBoth_answers (fun _ => contractsToggleFromEmployer_answers h hnow pk newValue)
        fun _ _ _ => contractsToggleFromInstitution_answers h hnow pk newValue
  | assessmentDetailsForInstitution action comment =>
      cases requester with
      | employer user company kind isAdmin => exact .refuse id
      | institution user institution kind =>
          change Answers _ _ _ (ite _ (ite _ _ _) _)
          split
          · rename_i hkind
            split
            · rename_i hinstitution
              refine assessmentDetailsForInstitution_answers h hnow user institution comment ?_ ?_
              · rintro rfl
                exact hmissing hkind hinstitution
              · rintro rfl
                exact hmissing hkind hinstitution
            · exact .refuse id
          · exact .refuse id
      | other => exact .refuse id
  | assessmentReview form => exact forInstitution_answers fun _ _ _ => assessmentReview_answers h hnow form

/-- When something is missing, the code raises. -/
theorem Inv.raised (h : s.Inv) (hmissing : ¬ s.NothingMissing request) : Raised (s.assessment.exec request) := by
  obtain ⟨now, requester, operation⟩ := request
  unfold NothingMissing at hmissing
  split at hmissing
  · rename_i user company kind isAdmin hrequester hoperation
    simp only at hrequester hoperation
    subst hrequester hoperation
    simp only [Classical.not_imp, Option.not_isSome_iff_eq_none] at hmissing
    obtain ⟨hkind, hadmin, hcompany, hsynced⟩ := hmissing
    change Raised (ite _ (ite _ _ _) _)
    rw [if_pos ⟨hkind, hadmin⟩, if_pos hcompany]
    exact contractsListFromEmployer_raises h hsynced
  · rename_i user institution kind comment hrequester hoperation
    simp only at hrequester hoperation
    subst hrequester hoperation
    simp only [Classical.not_imp] at hmissing
    obtain ⟨hkind, hinstitution, hmissing⟩ := hmissing
    obtain ⟨hreviewed, hfinal, hreview, hfinalReview⟩ : _ ∧ _ ∧ Raised (s.assessment.review now user institution) ∧ _ :=
      reviews_raise h user institution hmissing
    change Raised (ite _ (ite _ (ite _ (ite _ _ _) (ite _ _ _)) _) _)
    rw [if_pos hkind, if_pos hinstitution, if_pos hreviewed, if_pos hfinal]
    split
    · exact hreview
    · exact hfinalReview
  · rename_i user institution kind comment hrequester hoperation
    simp only at hrequester hoperation
    subst hrequester hoperation
    simp only [Classical.not_imp] at hmissing
    obtain ⟨hkind, hinstitution, hdreets⟩ := hmissing
    change Raised (ite _ (ite _ (ite _ _ _) _) _)
    rw [if_pos hkind, if_pos hinstitution, if_pos hdreets]
    exact ⟨_, rfl, trivial⟩
  · exact absurd trivial hmissing

/-- A step leaves the assessment as it is, or makes a change. -/
theorem Inv.change (h : s.Inv) (hstep : s.step request = some s') :
    ∃ fix, Change s.assessment request.now fix s'.assessment ∧ (∀ asked, fix = some asked → s.FixAsked request asked) := by
  obtain ⟨hnow, _, hexec | ⟨hsame, _⟩⟩ := step_eq_some.mp hstep
  · by_cases hmissing : s.NothingMissing request
    · rcases h.answers hnow hmissing with ⟨failure, herror, _⟩ | ⟨a', hchange, hok⟩
      · exact absurd (herror.symm.trans hexec) nofun
      · rw [Except.ok.inj (hexec.symm.trans hok)]
        refine ⟨_, hchange, fun asked hasked => ⟨hasked, ?_⟩⟩
        rw [hok]
        rfl
    · obtain ⟨failure, herror, _⟩ := h.raised hmissing
      exact absurd (herror.symm.trans hexec) nofun
  · exact ⟨none, hsame ▸ .same none, nofun⟩

theorem Inv.step (h : s.Inv) (hstep : s.step request = some s') : s'.Inv := by
  obtain ⟨fix, hchange, _⟩ := h.change hstep
  obtain ⟨hnow, hclock, _⟩ := step_eq_some.mp hstep
  unfold Inv
  rw [hclock]
  exact hchange.inv h hnow

/-- The request is answered exactly when nothing is missing. -/
theorem Inv.answered_iff (h : s.Inv) (hstep : s.step request = some s') :
    s.Answered request ↔ s.NothingMissing request := by
  have hrows := (h.step hstep).rows
  obtain ⟨hnow, _, hexec⟩ := step_eq_some.mp hstep
  by_cases hmissing : s.NothingMissing request
  · refine iff_of_true (fun t ht => ?_) hmissing
    obtain rfl : s' = t := Option.some.inj (hstep.symm.trans ht)
    rcases h.answers hnow hmissing with ⟨failure, herror, hnot⟩ | ⟨a', _, hok⟩
    · rcases hexec with hok | ⟨hsame, _⟩
      · exact absurd (herror.symm.trans hok) nofun
      · exact Or.inr ⟨⟨failure, failure?_eq_some.mpr herror, hnot⟩, hsame⟩
    · refine Or.inl ⟨?_, hrows⟩
      rw [hok]
      rfl
  · refine iff_of_false (fun hanswered => ?_) hmissing
    obtain ⟨failure, herror, hraised⟩ := h.raised hmissing
    rcases hanswered s' hstep with ⟨hok, _⟩ | ⟨⟨failure', hfailure, hnot⟩, _⟩
    · rw [herror] at hok
      cases hok
    · rw [Option.mem_def, failure?_eq_some, herror] at hfailure
      cases hfailure
      exact hnot hraised

end State

/-! ## Decisions -/

/-- Whoever acts and in whatever order: an allowance is granted only when it is requested and not refused; what the
GEIQ fills is justified and frozen from the submission to a fix of the GEIQ, what the institutions fill from the review
to a fix, and all of it after the final review. -/
theorem decisions_frozen (companies institutions : List Nat) (createdAt : DateTime) (before after : List Request)
    {s s' : State} (hbefore : run State.step (State.start companies institutions createdAt) before = some s)
    (hafter : run State.step s after = some s') :
    (∀ c ∈ s.assessment.contracts, c.allowanceGranted →
      c.allowanceRequested ∧ c.allowanceRefusalReason = none ∧ c.allowanceRefusalDetails = "") ∧
    (s.assessment.submittedAt ≠ none →
      (∀ c ∈ s.assessment.contracts, c.allowanceRequested → c.nbDaysInCampaignYear < 90 →
        c.allowanceRequestJustificationReason ≠ none ∧ c.allowanceRequestJustificationDetails ≠ "") ∧
      (AllSteps State.step (fun t request => ¬ t.FixAsked request .askForGeiqFix) s after →
        s'.assessment.geiqFields = s.assessment.geiqFields)) ∧
    (s.assessment.reviewedAt ≠ none →
      (∀ c ∈ s.assessment.contracts, c.allowanceRequested → ¬ c.allowanceGranted →
        c.allowanceRefusalReason ≠ none ∧ c.allowanceRefusalDetails ≠ "") ∧
      (AllSteps State.step (fun t request => ∀ fix, ¬ t.FixAsked request fix) s after →
        s'.assessment.institutionFields = s.assessment.institutionFields)) ∧
    (s.assessment.state = .finalReviewed → s'.assessment = s.assessment) := by
  have hinv : s.Inv := invariant_of_run (fun _ _ _ h hstep => h.step hstep) (State.start_inv ..) hbefore
  have hrow := hinv.rows.assessment
  refine ⟨fun c hc hgranted => ?_, fun hsubmitted => ⟨fun c hc hrequested hdays => ?_, fun hfix => ?_⟩,
    fun hreviewed => ⟨fun c hc hrequested hgranted => ?_, fun hfix => ?_⟩, fun hfinal => ?_⟩
  · have hcontract := hinv.rows.contracts c hc
    have hreason := (hinv.granted c hc hgranted).1
    refine ⟨hcontract.requested_of_granted hgranted, hreason, ?_⟩
    rcases hcontract.allowanceRefusalSet with ⟨_, hdetails⟩ | hboth
    · exact hdetails
    · exact absurd (Or.inl hreason) hboth
  · have hcontract := hinv.rows.contracts c hc
    have hjustified := hinv.justified (hrow.selection_of_submitted hsubmitted)
    have hrequires : c.requiresJustification := by
      simp only [EmployeeContract.requiresJustification, hrequested, Bool.true_and]
      exact decide_eq_true hdays
    have hreason := Assessment.awaitingForGeiq_eq_zero.mp hjustified c hc hrequires
    rcases hcontract.allowanceRequestJustificationSet with ⟨hnone, _⟩ | hboth
    · exact absurd hnone hreason
    · exact not_or.mp hboth
  · refine (invariant_of_allSteps (I := fun t => t.Inv ∧ t.assessment.geiqFields = s.assessment.geiqFields)
      ?_ ⟨hinv, rfl⟩ hfix hafter).2
    rintro t request t' ⟨ht, hfields⟩ hnofix hstep
    have hsub : t.assessment.submittedAt ≠ none := by
      rw [show t.assessment.submittedAt = s.assessment.submittedAt from congrArg GeiqFields.submittedAt hfields]
      exact hsubmitted
    obtain ⟨fix, hchange, hasked⟩ := ht.change hstep
    exact ⟨ht.step hstep, (hchange.geiqFields ht hsub fun heq => hnofix (hasked _ heq)).trans hfields⟩
  · have hcontract := hinv.rows.contracts c hc
    have hrefused := hinv.refused (hrow.grants_of_decision (hrow.decision_of_reviewed hreviewed))
    have hreason := Assessment.awaitingForInstitution_eq_zero.mp hrefused c hc hrequested hgranted
    rcases hcontract.allowanceRefusalSet with ⟨hnone, _⟩ | hboth
    · exact absurd hnone hreason
    · exact not_or.mp hboth
  · refine (invariant_of_allSteps (I := fun t => t.Inv ∧ t.assessment.reviewedAt ≠ none ∧
      t.assessment.institutionFields = s.assessment.institutionFields) ?_ ⟨hinv, hreviewed, rfl⟩ hfix hafter).2.2
    rintro t request t' ⟨ht, hrev, hfields⟩ hnofix hstep
    obtain ⟨fix, hchange, hasked⟩ := ht.change hstep
    have hnone : fix = none := by
      cases fix with
      | none => rfl
      | some asked => exact absurd (hasked asked rfl) (hnofix asked)
    obtain ⟨hsame, hrev'⟩ := hchange.institutionFields ht hrev hnone
    exact ⟨ht.step hstep, hrev', hsame.trans hfields⟩
  · refine (invariant_of_run (I := fun t => t.Inv ∧ t.assessment = s.assessment) ?_ ⟨hinv, rfl⟩ hafter).2
    rintro t request t' ⟨ht, hsame⟩ hstep
    have hrow' := ht.rows.assessment
    have hne : t.assessment.finalReviewedAt ≠ none := fun hnone => hrow'.state_ne_final hnone (hsame ▸ hfinal)
    obtain ⟨fix, hchange, _⟩ := ht.change hstep
    exact ⟨ht.step hstep, (hchange.eq_of_final ht hne).trans hsame⟩

def geiq : Requester := .employer 1 10 .geiq true

def ddets : Requester := .institution 2 20 .ddetsGeiq

def dreets : Requester := .institution 3 30 .dreetsGeiq

/-- The GEIQ fills its assessment, with a short contract that it justifies, and submits it. -/
def submission : List Request :=
  [⟨⟨1, 0⟩, geiq, .assessmentContractsSync (some [⟨814, 120⟩, ⟨1400, 30⟩])⟩,
   ⟨⟨2, 0⟩, geiq, .assessmentSyncFile .summaryDocumentFile (some 1)⟩,
   ⟨⟨2, 0⟩, geiq, .assessmentSyncFile .structureFinancialAssessmentFile (some 2)⟩,
   ⟨⟨2, 0⟩, geiq, .uploadActionFinancialAssessment (some 3)⟩,
   ⟨⟨2, 0⟩, geiq, .assessmentComment "Bilan"⟩,
   ⟨⟨3, 0⟩, geiq, .assessmentContractsToggle 1 true⟩,
   ⟨⟨3, 0⟩, geiq, .assessmentContractsDetails 1 .allowanceRequestJustification none ⟨some .other, "Motif"⟩ ⟨none, ""⟩⟩,
   ⟨⟨4, 0⟩, geiq, .assessmentContractsList (some .validate)⟩,
   ⟨⟨5, 0⟩, geiq, .assessmentDetailsForGeiq⟩]

/-- The DDETS refuses one allowance and enters its decision. -/
def decision : List Request :=
  [⟨⟨6, 0⟩, ddets, .assessmentContractsToggle 1 false⟩,
   ⟨⟨6, 0⟩, ddets, .assessmentContractsDetails 1 .allowanceRefusalJustification (some .allowanceRefusalJustification)
     ⟨none, ""⟩ ⟨some .other, "Refus"⟩⟩,
   ⟨⟨7, 0⟩, ddets, .assessmentContractsList (some .validate)⟩,
   ⟨⟨8, 0⟩, ddets, .assessmentReview ⟨"Avis", some 200000, some 81400, some 0, "A", "B", "C"⟩⟩]

/-- The DDETS and the DREETS review. -/
def reviews : List Request :=
  [⟨⟨9, 0⟩, ddets, .assessmentDetailsForInstitution (some .review) ""⟩,
   ⟨⟨10, 0⟩, dreets, .assessmentDetailsForInstitution (some .review) ""⟩]

theorem decisions_frozen_reviewed : ∃ s s',
    run State.step (State.start [10] [20, 30] ⟨0, 0⟩) (submission ++ decision ++ reviews) = some s ∧
      s.assessment.state = .finalReviewed ∧
      run State.step s [⟨⟨11, 0⟩, ddets, .assessmentContractsToggle 1 true⟩] = some s' ∧
      s'.assessment = s.assessment := by
  have hreached : ∃ s ∈ run State.step (State.start [10] [20, 30] ⟨0, 0⟩) (submission ++ decision ++ reviews),
      s.assessment.state = .finalReviewed ∧
      (run State.step s [⟨⟨11, 0⟩, ddets, .assessmentContractsToggle 1 true⟩]).isSome := by
    decide
  obtain ⟨s, hrun, hfinal, hsome⟩ := hreached
  obtain ⟨s', hafter⟩ := Option.isSome_iff_exists.mp hsome
  exact ⟨s, s', hrun, hfinal, hafter, (decisions_frozen _ _ _ _ _ hrun hafter).2.2.2 hfinal⟩

/-! ## Constraints -/

/-- The requests of a run are all answered exactly when each of them finds nothing missing. -/
theorem answered_iff_nothingMissing (companies institutions : List Nat) (createdAt : DateTime)
    (requests : List Request) :
    AllSteps State.step State.Answered (State.start companies institutions createdAt) requests ↔
      AllSteps State.step State.NothingMissing (State.start companies institutions createdAt) requests :=
  allSteps_congr (fun _ _ _ h hstep => h.step hstep) (fun _ _ _ h hstep => h.answered_iff hstep)
    (State.start_inv companies institutions createdAt)

/-- A review before the submission is against the workflow, a review without a decision and a validation without
contracts are against the dates, and a DDETS has no form to ask for a fix. -/
theorem requests_raise :
    ¬ AllSteps State.step State.Answered (State.start [10] [20, 30] ⟨0, 0⟩)
        [⟨⟨1, 0⟩, ddets, .assessmentDetailsForInstitution (some .review) ""⟩] ∧
      ¬ AllSteps State.step State.Answered (State.start [10] [20, 30] ⟨0, 0⟩)
        (submission ++ [⟨⟨6, 0⟩, dreets, .assessmentDetailsForInstitution (some .review) ""⟩]) ∧
      ¬ AllSteps State.step State.Answered (State.start [10] [20, 30] ⟨0, 0⟩)
        [⟨⟨1, 0⟩, geiq, .assessmentContractsList (some .validate)⟩] ∧
      ¬ AllSteps State.step State.Answered (State.start [10] [20, 30] ⟨0, 0⟩)
        (submission ++ [⟨⟨6, 0⟩, ddets, .assessmentDetailsForInstitution (some .askForInstitutionFix) "Revoir"⟩]) := by
  decide

/-! ## Creations -/

/-- Whatever is posted and however the transactions interleave, two assessments of one GEIQ in one campaign share no
antenna and are not both with the main GEIQ, and each covers something. -/
theorem creations_separate (ctx : Create.Context) (actions : List Create.Action) :
    AllStates (Create.State.step ctx)
      (fun s => s.assessments.Pairwise Create.Assessment.Separate ∧ ∀ a ∈ s.assessments, a.Covers)
      Create.State.start actions :=
  (allStates_of_step (fun _ _ _ h hstep => h.step hstep) Create.State.start_inv).mono fun _ h => ⟨h.separate, h.covers⟩

/-! ## The synchronization -/

namespace Sync

universe u v w x y

/-- The query set mirrors the API, and the other rows are left as they are, exactly when no two rows of the query set have
the `label_id` of one item and no row that is deleted shares its `label_id` with a row outside the query set. -/
theorem syncToDb_mirrors_iff {F : Type u} {V : Type v} {D : Type w} {σ : Type x} {K : Type y} [DecidableEq V]
    [DecidableEq D] (mapping : Mapping F K) (owner : LabelItem K V D → σ) (p : σ → Bool) (items : List (LabelItem K V D))
    (table : List (LabelRow F V D σ)) (hpk : (table.map LabelRow.pk).Nodup) (hids : (items.map LabelItem.id).Nodup)
    (hscope : ∀ item ∈ items, p (owner item) = true) :
    Mirrors mapping owner p items table (syncToDb mapping owner p true items table).table ↔ IsApart p items table := by
  have hothers : (syncToDb mapping owner p true items table).table.filter (fun row => !p row.owner) =
      (table.filter fun row => !p row.owner) ↔ ∀ row ∈ table, p row.owner = false →
        ∀ row' ∈ queryset p table, row'.labelId = row.labelId → row.labelId ∈ items.map LabelItem.id := by
    rw [others_syncToDb hscope hpk, List.filter_eq_self]
    simp only [List.mem_filter, Bool.not_eq_true', and_imp, decide_eq_true_eq, mem_removedInColl, not_and, not_not,
      List.mem_map, forall_exists_index]
  constructor
  · intro h
    exact ⟨(labelIds_perm_iff hscope hids).mp h.one, hothers.mp h.others⟩
  · intro h
    have hone : ((queryset p (syncToDb mapping owner p true items table).table).map LabelRow.labelId).Perm
        (items.map LabelItem.id) := (labelIds_perm_iff hscope hids).mpr h.unique
    have hdata : ∀ row ∈ queryset p (syncToDb mapping owner p true items table).table,
        ∃ item ∈ items, Matches mapping row item :=
      fun row hrow => data_syncToDb hscope hids hpk h.unique hrow
    obtain ⟨hcreated, hupdated, hdeleted⟩ := syncToDb_of_mirror hids hone hdata
    exact ⟨hone, hdata, hothers.mpr h.apart, hcreated, hupdated, hdeleted⟩

/-- Two employees with the same `label_id`, in two assessments. -/
def twoAssessments : List (LabelRow EmployeeField String Unit EmployeeOwner) :=
  [⟨1, 7, fun _ => "", (), ⟨1, false⟩⟩, ⟨2, 7, fun _ => "", (), ⟨2, false⟩⟩]

/-- The employee of the first assessment is no longer in the API: both are deleted. -/
theorem syncEmployees_twoAssessments : (syncEmployees 1 [] [] twoAssessments).table.map LabelRow.pk = [] := rfl

/-- When the API still has it, both assessments are left as they should be. -/
theorem syncEmployees_mirrors : Mirrors employeeMapping (employeeOwner 1 []) (fun owner => owner.assessment = 1)
    [⟨7, fun _ => "Martin", ()⟩] twoAssessments (syncEmployees 1 [] [⟨7, fun _ => "Martin", ()⟩] twoAssessments).table :=
  (syncToDb_mirrors_iff employeeMapping (employeeOwner 1 []) (fun owner => owner.assessment = 1)
    [⟨7, fun _ => "Martin", ()⟩] twoAssessments (by decide) (by decide) (by simp [employeeOwner])).mpr
    ⟨by decide, by simp [twoAssessments, queryset]⟩

end Sync

/-! ## Days of a contract in a year -/

section Days

open Itou.Lib.Calendar

/-- Up to the last year of the calendar, `nb_days_in_year` counts the days of the period that fall in the year. The
days of the period are those of all the years, and the three years shown for a contract share none. -/
theorem nbDaysInYear_counts {start end' : Date} (h : start ≤ end') :
    (∀ year ≤ maxYear, nbDaysInYear start end' year = some ((daysInYear start end' year).card : Int)) ∧
    (∀ years : Finset Int, (∀ year ∈ years, year ≤ maxYear) →
      (∀ d ∈ daysBetween start.ordinal end'.ordinal, yearOf d ∈ years) →
      ∑ year ∈ years, (nbDaysInYear start end' year).getD 0 = end'.ordinal - start.ordinal + 1) ∧
    ∀ c : ContractDates, c.startAt = start → c.lastDay = end' → ∀ campaignYear < maxYear, ∀ allowanceAmount,
      c.nbDaysInPreviousYear campaignYear = some ((daysInYear start end' (campaignYear - 1)).card : Int) ∧
      (∃ info, c.contractInfo allowanceAmount campaignYear = some info ∧
        (contractDataToDjango info).nbDaysInCampaignYear = (daysInYear start end' campaignYear).card ∧
        ((contractDataToDjango info).allowanceRequested ↔
          allowanceAmount ≠ 0 ∧ minDaysInYearForAllowance < (daysInYear start end' campaignYear).card)) ∧
      c.nbDaysInFollowingYear campaignYear = some ((daysInYear start end' (campaignYear + 1)).card : Int) ∧
      Disjoint (daysInYear start end' (campaignYear - 1)) (daysInYear start end' campaignYear) ∧
      Disjoint (daysInYear start end' campaignYear) (daysInYear start end' (campaignYear + 1)) ∧
      Disjoint (daysInYear start end' (campaignYear - 1)) (daysInYear start end' (campaignYear + 1)) := by
  refine ⟨fun year hyear => nbDaysInYear_eq h hyear, fun years hyears hall => ?_, ?_⟩
  · have hcounts : ∀ year ∈ years, (nbDaysInYear start end' year).getD 0 = ((daysInYear start end' year).card : Int) := by
      intro year hyear
      rw [nbDaysInYear_eq h (hyears year hyear), Option.getD_some]
    have hle := Date.le_iff.1 h
    rw [Finset.sum_congr rfl hcounts, ← Nat.cast_sum, sum_daysInYear hall, card_daysBetween]
    omega
  · rintro c rfl rfl campaignYear hcampaign allowanceAmount
    refine ⟨nbDaysInYear_eq h (by omega), ⟨_, c.contractInfo_eq h (by omega) allowanceAmount, rfl, ?_⟩,
      nbDaysInYear_eq h (by omega), disjoint_daysInYear (by omega), disjoint_daysInYear (by omega),
      disjoint_daysInYear (by omega)⟩
    simp [contractDataToDjango]

/-- January 1, 2024. -/
def firstOf2024 : Date := ⟨738886, by decide, by decide⟩

/-- January 1, 2025. -/
def firstOf2025 : Date := ⟨739252, by decide, by decide⟩

/-- The 366 days of 2024 and the first of 2025, by years. -/
theorem nbDaysInYear_counts_2024 :
    ∑ year ∈ {2024, 2025}, (nbDaysInYear firstOf2024 firstOf2025 year).getD 0 = 367 :=
  (nbDaysInYear_counts (show firstOf2024 ≤ firstOf2025 from Date.le_iff.2 (by decide))).2.1 {2024, 2025}
    (by decide) fun d hd => by
      have hyears : yearOf d = 2024 ∨ yearOf d = 2025 := by
        simp only [yearOf_eq_iff, daysBeforeYear]
        have := mem_daysBetween.1 hd
        simp only [firstOf2024, firstOf2025] at this
        omega
      rcases hyears with h | h <;> simp [h]

/-- There is no January 1 of the year 10000: no count is given of a day of 2024, which has none in that year. -/
theorem nbDaysInYear_10000 : ¬ ∀ (start end' : Date) (year : Int), start ≤ end' →
    nbDaysInYear start end' year = some ((daysInYear start end' year).card : Int) := by
  intro h
  have hcount := h firstOf2024 firstOf2024 10000 (Date.le_iff.2 le_rfl)
  rw [nbDaysInYear_of_lt (by decide)] at hcount
  cases hcount

end Days

end Itou.GeiqAssessments
