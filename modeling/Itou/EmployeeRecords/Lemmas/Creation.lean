import Itou.EmployeeRecords.Creation
import Mathlib.Data.List.Nodup

/-!
# The list of hires, and what their creation can raise
-/

namespace Itou.EmployeeRecords

open Itou.Lib

/-! ## Validation -/

theorem JobApplication.clean_error {a : JobApplication} {e : TransitionError} (h : a.clean = .error e) :
    ∃ message, e = .validation message := by
  rcases bind_eq_error.mp h with happlication | ⟨-, -, hmodel⟩
  · unfold cleanJobApplication at happlication
    repeat' split at happlication
    all_goals cases happlication
    all_goals exact ⟨_, rfl⟩
  · rcases bind_eq_error.mp hmodel with hdetails | ⟨-, -, haddress⟩
    · unfold JobSeeker.cleanDetails at hdetails
      repeat' split at hdetails
      all_goals cases hdetails
      all_goals exact ⟨_, rfl⟩
    · unfold HexaAddress.clean at haddress
      repeat' split at haddress
      all_goals cases haddress
      all_goals exact ⟨_, rfl⟩

namespace Creation

theorem fromSiaeKind_ne_none {c : Company} (h : c.canUseEmployeeRecord = true) :
    SiaeMeasure.fromSiaeKind c.kind ≠ none := by
  simp only [Company.canUseEmployeeRecord, aspEmployeeRecordKinds, Bool.and_eq_true, decide_eq_true_eq, List.mem_cons,
    List.not_mem_nil, or_false] at h
  rcases h.1 with h | h | h | h | h <;> simp [h, SiaeMeasure.fromSiaeKind]

theorem convention_ne_none {c : Company} (h : c.canUseEmployeeRecord = true) : c.convention ≠ none := by
  rw [Company.canUseEmployeeRecord, Bool.and_eq_true] at h
  exact Option.isSome_iff_ne_none.mp h.2

namespace Db

variable {db : Db} {siae : Company} {a : JobApplication}

theorem siretFromAspSource_error {e : TransitionError} (h : db.siretFromAspSource siae = .error e) :
    ∃ message, e = .validation message := by
  simp only [siretFromAspSource] at h
  split at h
  · cases h
  · cases h
    exact ⟨_, rfl⟩

/-- The company of an application is the row of its key. -/
theorem toCompany_eq (hsiae : siae ∈ db.companies) (ha : a ∈ db.jobApplications) (hpk : a.toCompany.pk = siae.pk) :
    a.toCompany = siae := by
  have hnodup : (db.companies.map fun c => c.pk).Nodup := List.pairwise_map.mpr db.companies_pk
  exact List.inj_on_of_nodup_map hnodup (db.toCompany_mem a ha) hsiae hpk

/-! ## The list -/

theorem eligibleAsEmployeeRecord_eq {siret : String} (hcan : siae.canUseEmployeeRecord = true)
    (hsiret : db.siretFromAspSource siae = .ok siret) :
    ∃ l, db.eligibleAsEmployeeRecord siae = .ok l ∧ ∀ a, a ∈ l ↔
      a ∈ db.jobApplications ∧ db.IsCandidate siae a ∧
        ∀ r ∈ db.employeeRecords, r.siret = siret → r.approvalNumber ∉ a.approval.map Approval.number := by
  simp only [eligibleAsEmployeeRecord, hcan, if_true, forAspCompany, hsiret, bind, Except.bind, pure, Except.pure]
  refine ⟨_, rfl, fun a => ?_⟩
  simp only [mem_orderByDesc, List.mem_filter, decide_eq_true_eq, List.mem_map]
  refine and_congr_right' (and_congr_right' ?_)
  cases a.approval with
  | none => simp
  | some approval => simp [eq_comm]

/-- What is in the list is a candidate of a company that the ASP knows. -/
theorem mem_eligibleAsEmployeeRecord {l : List JobApplication} (h : db.eligibleAsEmployeeRecord siae = .ok l)
    (ha : a ∈ l) : siae.canUseEmployeeRecord = true ∧ a ∈ db.jobApplications ∧ db.IsCandidate siae a := by
  by_cases hcan : siae.canUseEmployeeRecord = true
  · cases hsiret : db.siretFromAspSource siae with
    | error e =>
        simp [eligibleAsEmployeeRecord, hcan, forAspCompany, hsiret, bind, Except.bind] at h
    | ok siret =>
        obtain ⟨l', hl', hmem⟩ := eligibleAsEmployeeRecord_eq hcan hsiret
        obtain rfl : l' = l := Except.ok.inj (hl'.symm.trans h)
        obtain ⟨hdb, hcandidate, -⟩ := (hmem a).mp ha
        exact ⟨hcan, hdb, hcandidate⟩
  · rw [eligibleAsEmployeeRecord, if_neg hcan, Except.ok.injEq] at h
    subst h
    exact absurd ha List.not_mem_nil

/-! ## The creation -/

/-- A record that is no duplicate can be inserted. -/
theorem save_ok {record : EmployeeRecord} (hnull : record.aspMeasure ≠ none) (h : ¬ db.IsDuplicate record) :
    ∃ db', db.save record = .ok db' := by
  have hunique : ∀ r ∈ db.employeeRecords, record.identifiers ≠ r.identifiers :=
    fun r hr heq => h ⟨hnull, r, hr, heq.symm⟩
  rw [save, dif_neg hnull, dif_pos hunique]
  exact ⟨_, rfl⟩

theorem fillDenormalizedFields_ok {record : EmployeeRecord} (h : db.fillDenormalizedFields a = .ok record) :
    record.aspMeasure = SiaeMeasure.fromSiaeKind a.toCompany.kind := by
  obtain ⟨siret, -, h⟩ := bind_eq_ok.mp h
  split at h
  · cases h
    rfl
  · cases h

theorem fillDenormalizedFields_error {e : TransitionError} (hconvention : a.toCompany.convention ≠ none)
    (happroval : a.approval ≠ none) (h : db.fillDenormalizedFields a = .error e) :
    ∃ message, e = .validation message := by
  rcases bind_eq_error.mp h with hsiret | ⟨siret, -, h⟩
  · exact siretFromAspSource_error hsiret
  · split at h
    · cases h
    · rename_i hnone
      obtain ⟨convention, hconvention⟩ := Option.ne_none_iff_exists'.mp hconvention
      obtain ⟨approval, happroval⟩ := Option.ne_none_iff_exists'.mp happroval
      exact absurd happroval (hnone convention approval hconvention)

/-- The validation comes first, and changes nothing. -/
theorem fromJobApplication_clean :
    db.fromJobApplication a true = a.toFetched.clean >>= fun _ => db.fromJobApplication a false := rfl

theorem fromJobApplication_ok {clean : Bool} {record : EmployeeRecord} (h : db.fromJobApplication a clean = .ok record) :
    record.aspMeasure = SiaeMeasure.fromSiaeKind a.toCompany.kind ∧ ¬ db.IsDuplicate record := by
  have hbuilt : db.fromJobApplication a false = .ok record := by
    cases clean with
    | false => exact h
    | true =>
        rw [fromJobApplication_clean] at h
        obtain ⟨-, -, h⟩ := bind_eq_ok.mp h
        exact h
  obtain ⟨filled, hfilled, hbuilt⟩ := bind_eq_ok.mp hbuilt
  split at hbuilt
  · cases hbuilt
  · rename_i hduplicate
    cases hbuilt
    exact ⟨fillDenormalizedFields_ok hfilled, hduplicate⟩

theorem fromJobApplication_error {clean : Bool} {e : TransitionError} (hconvention : a.toCompany.convention ≠ none)
    (happroval : a.approval ≠ none) (h : db.fromJobApplication a clean = .error e) :
    ∃ message, e = .validation message := by
  have hcases : a.toFetched.clean = .error e ∨ db.fromJobApplication a false = .error e := by
    cases clean with
    | false => exact Or.inr h
    | true =>
        rw [fromJobApplication_clean] at h
        rcases bind_eq_error.mp h with hclean | ⟨-, -, h⟩
        · exact Or.inl hclean
        · exact Or.inr h
  rcases hcases with hclean | h
  · exact JobApplication.clean_error hclean
  · rcases bind_eq_error.mp h with hfill | ⟨filled, -, h⟩
    · exact fillDenormalizedFields_error hconvention happroval hfill
    · split at h
      · cases h
        exact ⟨_, rfl⟩
      · cases h

/-- For a company that can use records, an application with an approval has its record, or its validation says why
not. -/
theorem creates_of_approval {clean : Bool} (hcan : a.toCompany.canUseEmployeeRecord = true)
    (happroval : a.approval ≠ none) : db.Creates a clean := by
  unfold Creates
  cases h : db.fromJobApplication a clean with
  | ok record =>
      obtain ⟨hmeasure, hduplicate⟩ := fromJobApplication_ok h
      apply save_ok _ hduplicate
      rw [hmeasure]
      exact fromSiaeKind_ne_none hcan
  | error e => exact fromJobApplication_error (convention_ne_none hcan) happroval h

end Db

end Creation

end Itou.EmployeeRecords
