import Itou.Eligibility.JobSeekerFilters
import Itou.Eligibility.Lemmas.Tasks
import Itou.Eligibility.Allowance
import Itou.Eligibility.Lemmas.Precedence

/-!
# Theorems on eligibility diagnoses
-/

namespace Itou.Eligibility

open Itou.Lib

/-! ## Precedence of the prescribers' diagnoses -/

/-- What the code promises of the diagnoses at the time of the last step. -/
structure State.Precedence (s : State) : Prop where
  prescriberFirst : ∀ jobSeeker geiq,
    (∃ p ∈ s.diagnoses, p.ByPrescriber s.clock.date jobSeeker) →
    ∃ d, (s.validDiagnosesFor s.clock.date jobSeeker (some geiq)).head? = some d ∧
      d.authorPrescriberOrganization.isSome = true
  oneByGeiq : ∀ jobSeeker geiq,
    s.diagnoses.countP (·.byGeiq s.clock.date jobSeeker geiq) ≤ 1

theorem State.Inv.precedence {s : State} (hs : s.Inv) : s.Precedence where
  prescriberFirst := by
    rintro jobSeeker geiq ⟨p, hp, hby⟩
    exact hs.head_byPrescriber hp hby
  oneByGeiq := hs.unique

/-- **Prescribers first.** Whatever diagnoses are created, updated and attached to job applications, and however
many days pass, a valid diagnosis of a prescriber comes before those of the GEIQ, and the GEIQ has at most one
valid diagnosis of its own for a job seeker. -/
theorem prescriber_diagnoses_take_precedence (expirationDate : Int → Int) (clock : DateTime)
    (labels : List (DateTime × Action)) :
    AllStates (State.step expirationDate) State.Precedence (State.start clock) labels :=
  (allStates_of_step (fun _ _ _ hs h => State.Inv.step hs h) (State.Inv.start clock)).mono
    fun _ hs => hs.precedence

/-! ## Diagnoses that approvals keep valid -/

/-- What the code says of a diagnosis and of the approvals attached to it goes together exactly when no last day of an
approval decides, the first created and the last created approval give the same expiry, and the last created one is
valid when one of them has to be. -/
theorem Registry.agrees_iff {r : Registry} {jobSeeker : User} {d : EligibilityDiagnosis}
    (hattached : r.Attached jobSeeker d) (today : Int) (waitingPeriodEnd : Int → Int) :
    r.Agrees today waitingPeriodEnd jobSeeker d ↔
      r.LastDayCovered today d ∧ r.SameExpiry today d ∧ r.LastIsValid today d := by
  constructor
  · intro h
    exact ⟨isConsideredValid_iff.mp h.isConsideredValid, consideredToExpireAt_iff.mp h.consideredToExpireAt,
      (today_le_expiresWith_iff h.consideredToExpireAt h.isConsideredValid).mp h.valid⟩
  · rintro ⟨hcovered, hsame, hlast⟩
    have hvalid := isConsideredValid_iff.mpr hcovered
    have hexpiry := consideredToExpireAt_iff.mpr hsame
    exact {
      isConsideredValid := hvalid
      consideredToExpireAt := hexpiry
      valid := (today_le_expiresWith_iff hexpiry hvalid).mpr hlast
      expired := fun hnot => hexpiry ▸ expiresWith_le_of_not_valid hvalid hnot
      hasConsideredValid := hasConsideredValid_of_isConsideredValid hattached }

/-- A diagnosis that ended on the day 90, and an approval attached to it that ends on the day 700. -/
def Registry.expiredDiagnosis : Registry where
  diagnoses := [⟨1, 7, .employer 3, ⟨0, 0⟩, 90⟩]
  db := ⟨AList.singleton 1 ⟨"999992400001", 7, 0, 700, ⟨0, 1⟩, ⟨0, 1⟩⟩, ∅, ∅⟩
  eligibilityDiagnosis := fun _ => some 1

theorem Registry.expiredDiagnosis_attached :
    Registry.expiredDiagnosis.Attached ⟨7, .jobSeeker⟩ ⟨1, 7, .employer 3, ⟨0, 0⟩, 90⟩ :=
  ⟨by decide, by decide, by decide⟩

/-- The day before the last one, the four places agree. -/
theorem Registry.expiredDiagnosis_agrees :
    Registry.expiredDiagnosis.Agrees 699 id ⟨7, .jobSeeker⟩ ⟨1, 7, .employer 3, ⟨0, 0⟩, 90⟩ := by
  refine (Registry.agrees_iff Registry.expiredDiagnosis_attached 699 id).mpr ⟨?_, ?_, fun _ => Or.inr ?_⟩
  · unfold Registry.LastDayCovered
    decide
  · unfold Registry.SameExpiry
    decide
  · decide

/-- On the last day of the approval, `Approval.is_valid` and `has_considered_valid` hold, the diagnosis is considered to
expire on that day, and `is_considered_valid` does not hold. -/
theorem Registry.lastDay_disagrees :
    (Registry.expiredDiagnosis.approvalSet ⟨1, 7, .employer 3, ⟨0, 0⟩, 90⟩).any (fun a => a.isValid 700) = true ∧
      Registry.expiredDiagnosis.hasConsideredValid 700 id ⟨7, .jobSeeker⟩ (some 3) = true ∧
      Registry.expiredDiagnosis.consideredToExpireAt 700 ⟨1, 7, .employer 3, ⟨0, 0⟩, 90⟩ = 700 ∧
      Registry.expiredDiagnosis.isConsideredValid 700 ⟨1, 7, .employer 3, ⟨0, 0⟩, 90⟩ = false ∧
      ¬ Registry.expiredDiagnosis.Agrees 700 id ⟨7, .jobSeeker⟩ ⟨1, 7, .employer 3, ⟨0, 0⟩, 90⟩ :=
  ⟨by decide, by decide, by decide, by decide, fun h => absurd h.isConsideredValid (by decide)⟩

/-! ## Lists and pages -/

namespace FilteredDb

/-- What the lists and the pages say of a job seeker on one day goes together. -/
structure ListsAgree (db : FilteredDb) (today : Int) (waitingPeriodEnd : Int → Int) (u : User) : Prop where
  validated : ∀ siae users, u ∈ db.registry.eligibilityValidated today siae users ↔
    u ∈ users ∧ db.registry.hasConsideredValid today waitingPeriodEnd u siae = true
  exactlyOne : ∀ siae users, u ∈ users → (u ∈ db.registry.eligibilityValidated today siae users ↔
    u ∉ db.registry.eligibilityPending today siae users)
  /-- The status is one of three, and it is `valid` until the last day of an approval. -/
  lastDay : db.passStatus today waitingPeriodEnd u = .valid ↔
    db.registry.hasValidApproval today waitingPeriodEnd u = true
  filtered : ∀ data queryset, u ∈ db.filter today data queryset ↔
    u ∈ queryset ∧ db.Satisfies today waitingPeriodEnd data u

/-- **Lists and pages.** The querysets, the filters of the list and the properties of a job seeker agree. -/
theorem listsAgree (db : FilteredDb) (today : Int) (waitingPeriodEnd : Int → Int) {u : User}
    (hu : u.isJobSeeker = true) : db.ListsAgree today waitingPeriodEnd u where
  validated siae users := by
    rw [Registry.eligibilityValidated, List.mem_filter, eligibilityValidatedLookup_eq hu]
  exactlyOne siae users hmem := by
    rw [Registry.eligibilityValidated, Registry.eligibilityPending, List.mem_filter, List.mem_filter,
      Bool.not_eq_true', ← Bool.not_eq_true, not_and, not_not]
    exact ⟨fun h _ => h.2, fun h => ⟨hmem, h hmem⟩⟩
  lastDay := by
    unfold passStatus
    split
    · rename_i hvalid
      exact iff_of_true rfl hvalid
    · rename_i hnot
      refine iff_of_false (fun h => ?_) hnot
      split at h <;> cases h
  filtered data queryset := mem_filter_iff waitingPeriodEnd hu

/-- The job seeker 7 has a diagnosis that has ended, an approval that ends on the day 700, and no contract. -/
def endingSoon : FilteredDb where
  registry := Registry.expiredDiagnosis
  contracts := []
  isStalled := fun _ => false
  isNotStalledAnymore := fun _ => none
  advisors := fun _ => []

/-- No box is ticked. -/
def noChoice : FilterData where
  jobSeeker := none
  eligibilityValidated := false
  eligibilityPending := false
  approvalActive := false
  approvalExpired := false
  noApproval := false
  isStalled := false
  organizationMembers := []
  approvalEndingSoon := false
  contractEndingSoon := false

/-- On the last day of the approval, the job seeker is listed as valid. -/
theorem listsAgree_lastDay :
    endingSoon.filter 700 { noChoice with eligibilityValidated := true, approvalActive := true } [⟨7, .jobSeeker⟩] =
        [⟨7, .jobSeeker⟩] ∧
      endingSoon.ListsAgree 700 id ⟨7, .jobSeeker⟩ :=
  ⟨rfl, listsAgree endingSoon 700 id rfl⟩

/-- Both boxes of the end of the journey are ticked. The approval ends soon, and the job seeker is not listed. -/
theorem bothConditions :
    OneOf [
      (true, EndsSoon 690 ((endingSoon.approvalsOf ⟨7, .jobSeeker⟩).map (·.endAt)) approvalEndingSoonDays),
      (true, EndsSoon 690 ((endingSoon.contracts.filter fun c => c.jobSeeker = 7).filterMap (·.endDate))
        iaeContractEndingSoonDays)] ∧
    endingSoon.filter 690 { noChoice with approvalEndingSoon := true, contractEndingSoon := true } [⟨7, .jobSeeker⟩] =
      [] := by
  refine ⟨fun _ => ⟨_, List.mem_cons_self, rfl, 700, ?_, ?_⟩, rfl⟩
  · decide
  · decide

end FilteredDb

/-! ## The allowance of GEIQ diagnoses -/

namespace Allowance.Db

/-- **The filter and the amount.** A diagnosis passes the filter exactly when it gives an allowance. -/
theorem passesFilter_iff_allowance (db : Db) (d : GEIQEligibilityDiagnosis) :
    db.passesFilter d = true ↔ 0 < db.allowanceAmount d := by
  have hlevel1 : db.existsSelected d (fun c => sqlEq c.level (some .level1)) = true ↔
      0 < counter ((db.administrativeCriteria d).filterMap (·.level)) .level1 := by
    simp only [existsSelected_iff, sqlEq_eq_true, counter_level, List.countP_pos_iff, decide_eq_true_eq]
  have hannex : db.existsSelected d (fun c => some (c.annex ∈ [.annex1, .bothAnnexes])) = true ↔
      0 < counter ((db.administrativeCriteria d).map (·.annex)) .annex1 +
        counter ((db.administrativeCriteria d).map (·.annex)) .bothAnnexes := by
    rw [Nat.add_pos_iff_pos_or_pos]
    simp only [existsSelected_iff, counter_annex, List.countP_pos_iff, decide_eq_true_eq, Option.some.injEq,
      List.mem_cons, List.not_mem_nil, or_false]
    constructor
    · rintro ⟨c, hc, h | h⟩
      · exact Or.inl ⟨c, hc, h⟩
      · exact Or.inr ⟨c, hc, h⟩
    · rintro (⟨c, hc, h⟩ | ⟨c, hc, h⟩)
      · exact ⟨c, hc, Or.inl h⟩
      · exact ⟨c, hc, Or.inr h⟩
  simp only [passesFilter, Bool.or_eq_true, decide_eq_true_eq, hlevel1, hannex, levelTwoCriteriaCount_eq,
    ← counter_level, allowanceAmount, geiqAllowanceAmount]
  split
  · rename_i hprescriber
    simp [hprescriber]
  · rename_i hprescriber
    split
    · rename_i hlevels
      simp only [hprescriber, false_or]
      exact iff_of_true (Or.inl hlevels) (by decide)
    · rename_i hlevels
      split
      · rename_i hannexes
        exact iff_of_true (Or.inr hannexes) (by decide)
      · rename_i hannexes
        simp only [hprescriber, false_or]
        exact iff_of_false (not_or.mpr ⟨hlevels, hannexes⟩) (by decide)

end Allowance.Db

/-! ## Certification of a criterion -/

namespace Tasks

variable (int fromisoformat : String → Option Int)

/-- **What a certification survives.** When the provider is asked, the run saves a final answer as a whole, keeps the
data alone of an answer that will never be one, and else leaves the row as it was, to be retried when the failure is
temporary, if and only if no temporary failure trips it. -/
theorem survives_iff_handles (jobSeeker : JobSeeker) (isConfigured isBornInFrance : Bool)
    (accepts : Criterion → Bool) (attemptAt now : Int) (db : Db) (answer : Answer)
    (hcan : canAsk jobSeeker isConfigured isBornInFrance answer = true) :
    Survives accepts answer.certifier attemptAt now db
      (asyncCertifyCriterion int fromisoformat jobSeeker isConfigured isBornInFrance accepts attemptAt now db answer).1
      (asyncCertifyCriterion int fromisoformat jobSeeker isConfigured isBornInFrance accepts attemptAt now db answer).2
      (verdict fromisoformat answer) ↔
    HandlesFailures int fromisoformat answer := by
  have hmatches := certify_matches int fromisoformat (db.attempted attemptAt).criterion now answer
  unfold HandlesFailures
  cases hverdict : verdict fromisoformat answer with
  | final data period recognised =>
      rw [hverdict] at hmatches
      rw [asyncCertifyCriterion_of_ok int fromisoformat hcan hmatches]
      refine iff_of_true ?_ fun failure h => by cases h
      simp only [Survives]
      split
      · exact ⟨rfl, rfl⟩
      · rfl
  | undecidable data =>
      rw [hverdict] at hmatches
      rw [asyncCertifyCriterion_of_ok int fromisoformat hcan hmatches]
      refine iff_of_true ?_ fun failure h => by cases h
      simp only [Survives]
      split
      · exact ⟨rfl, rfl⟩
      · rfl
  | failed failure =>
      rw [hverdict] at hmatches
      obtain ⟨e, he, hretry⟩ := hmatches
      rw [asyncCertifyCriterion_of_error int fromisoformat hcan he]
      simp only [Survives, true_and, Option.any_some, Verdict.failed.injEq]
      constructor
      · rintro h _ rfl htemporary
        exact (hretry htemporary).symm.trans (h htemporary)
      · intro h htemporary
        exact (hretry htemporary).trans (h failure rfl htemporary)

/-- A criterion that nothing certified, and a job seeker with what API Particulier needs. -/
def uncertified : Db := ⟨⟨.null, none, none, none⟩, []⟩

def completeJobSeeker : JobSeeker := ⟨"Ada", "Roy", "MME", some 0, some 100, some 75056, "", ""⟩

/-- `429 Too Many Requests`, with no header `Retry-After`. -/
def tooManyRequests : Answer := .apiParticulier (.response ⟨429, none, .notJson⟩)

def readInt (text : String) : Option Int := (int? text.toList).map Int.ofNat

theorem survives_iff_handles_serverError :
    Survives (fun _ => true) .apiParticulier 1 2 uncertified
      (asyncCertifyCriterion readInt readInt completeJobSeeker true false (fun _ => true) 1 2 uncertified
        (.apiParticulier (.response ⟨503, none, .notJson⟩))).1
      (asyncCertifyCriterion readInt readInt completeJobSeeker true false (fun _ => true) 1 2 uncertified
        (.apiParticulier (.response ⟨503, none, .notJson⟩))).2
      (verdict readInt (.apiParticulier (.response ⟨503, none, .notJson⟩))) :=
  (survives_iff_handles readInt readInt completeJobSeeker true false (fun _ => true) 1 2 uncertified
    (.apiParticulier (.response ⟨503, none, .notJson⟩)) (by decide)).2 (by
      rintro _ ⟨⟩ _
      rfl)

/-- The attempt is not retried: there is no delay to read. -/
theorem tooManyRequests_notRetried :
    ¬ Survives (fun _ => true) .apiParticulier 1 2 uncertified
      (asyncCertifyCriterion readInt readInt completeJobSeeker true false (fun _ => true) 1 2 uncertified
        tooManyRequests).1
      (asyncCertifyCriterion readInt readInt completeJobSeeker true false (fun _ => true) 1 2 uncertified
        tooManyRequests).2
      (verdict readInt tooManyRequests) :=
  fun h => Bool.noConfusion (h.2 rfl)

end Tasks

end Itou.Eligibility
