import Itou.Companies.CleanUp

/-!
# What the clean-up of a company reaches

The deletion of a company reaches few tables. It fails when a row that stays refers to a row that goes, or when an
assignment that loses its company collides with another one.
-/

namespace Itou.Companies.CleanUp

open Itou.Lib Itou.Lib.Deletions Itou.Relations

/-! ## The predicate -/

section Predicate

variable {db : Database} {siae : Siae} {field : Relation} {pk : Nat}

theorem couldSiaeBeDeleted_of_blocked (h : ¬ Unblocked db siae.pk) : couldSiaeBeDeleted db siae = .ok false := by
  unfold couldSiaeBeDeleted
  split
  next => rfl
  next hevaluated =>
    split
    next => rfl
    next happlications =>
      split
      next => rfl
      next hprolongation =>
        split
        next => rfl
        next hdiagnosis =>
          refine absurd ⟨?_, by simpa using hdiagnosis⟩ h
          simp only [Bool.or_eq_true, not_or, Bool.not_eq_true] at hevaluated happlications hprolongation
          simp [checkedRelations, hevaluated, happlications, hprolongation]

theorem couldSiaeBeDeleted_of_unblocked (h : Unblocked db siae.pk) : couldSiaeBeDeleted db siae =
    if siae.source = .asp then
      siae.convention.elim (.error .attributeError) fun convention => .ok (siaesCount db convention.1 == 1)
    else .ok true := by
  obtain ⟨hchecked, hdiagnosis⟩ := h
  simp only [checkedRelations, List.forall_mem_cons, List.not_mem_nil, false_imp_iff, implies_true, and_true] at hchecked
  obtain ⟨hevaluated, hto, hsender, hfrom, hprolongation⟩ := hchecked
  cases hconvention : siae.convention <;>
    simp [couldSiaeBeDeleted, hevaluated, hto, hsender, hfrom, hprolongation, hdiagnosis, hconvention]

theorem couldSiaeBeDeleted_eq_true :
    couldSiaeBeDeleted db siae = .ok true ↔ Unblocked db siae.pk ∧ IsAlone db siae := by
  by_cases h : Unblocked db siae.pk
  · rw [couldSiaeBeDeleted_of_unblocked h, and_iff_right h]
    by_cases hsource : siae.source = .asp
    · cases hconvention : siae.convention <;> simp [IsAlone, hsource, hconvention]
    · simp [IsAlone, hsource]
  · simp [couldSiaeBeDeleted_of_blocked h, h]

theorem couldSiaeBeDeleted_eq_error :
    couldSiaeBeDeleted db siae = .error .attributeError ↔
      Unblocked db siae.pk ∧ siae.source = .asp ∧ siae.convention = none := by
  by_cases h : Unblocked db siae.pk
  · rw [couldSiaeBeDeleted_of_unblocked h, and_iff_right h]
    by_cases hsource : siae.source = .asp
    · cases siae.convention <;> simp [hsource]
    · simp [hsource]
  · simp [couldSiaeBeDeleted_of_blocked h, h]

end Predicate

/-! ## What the deletion of a company reaches -/

def isReached : Model → Bool
  | .company | .appointment | .assessmentCompanies | .companyMembership | .companyTokenCompanies | .disabledNotification
  | .employerInvitation | .invitation | .invitationRequest | .jobApplicationComment | .jobApplicationSelectedJobs
  | .jobDescription | .mobilizationEvent | .notificationSettings | .participation => true
  | _ => false

theorem isReached_of_cascade (r : Relation) (honDelete : r.foreignKey.onDelete = .cascade)
    (htarget : isReached r.foreignKey.target = true) : isReached r.foreignKey.model = true := by
  revert honDelete htarget
  cases r <;> decide

theorem not_isReached_of_kept : ∀ model ∈ keptModels, isReached model = false := by
  decide

/-- The relations to what is reached that forbid the deletion, of models that are not reached. -/
theorem restrict_of_isReached (r : Relation) (htarget : isReached r.foreignKey.target = true)
    (honDelete : r.foreignKey.onDelete = .restrict) :
    r.foreignKey.target = .company ∧ (r ∈ checkedRelations ∨ r ∈ uncheckedRelations) := by
  revert honDelete htarget
  cases r <;> decide

theorem not_protect_of_isReached (r : Relation) (htarget : isReached r.foreignKey.target = true) :
    r.foreignKey.onDelete ≠ .protect := by
  revert htarget
  cases r <;> decide

theorem restricts : ∀ r ∈ checkedRelations ++ uncheckedRelations,
    r.foreignKey.target = .company ∧ r.foreignKey.onDelete = .restrict ∧ isReached r.foreignKey.model = false := by
  decide

theorem not_cascade_to_company (r : Relation) (honDelete : r.foreignKey.onDelete = .cascade) :
    r.foreignKey.model ≠ .company := by
  revert honDelete
  cases r <;> decide

variable {db db' : Database} {siae : Siae} {row a b : Row} {k : Model × Nat} {pk pk' : Nat} {field : Relation}

theorem isReached_of_mem_collected (h : k ∈ db.collected [(.company, pk)]) : isReached k.1 = true := by
  refine Schema.Collected.model (P := fun model => isReached model = true) ?_ db.formed isReached_of_cascade
    (Database.mem_collected.mp h)
  intro k hk
  rw [List.mem_singleton.mp hk]
  rfl

theorem company_mem_collected : (.company, pk') ∈ db.collected [(.company, pk)] ↔ pk' = pk := by
  rw [Database.mem_collected, Schema.collected_iff]
  constructor
  · rintro (hroot | ⟨row, hrow, hkey, link, hlink, honDelete, -⟩)
    · simpa using hroot
    · have hmodel : link.1.foreignKey.model = row.model := (db.formed row hrow).2 link hlink
      exact absurd (hmodel.trans (congrArg Prod.fst hkey)) (not_cascade_to_company link.1 honDelete)
  · rintro rfl
    exact .inl (List.mem_singleton.mpr rfl)

theorem not_protected : ¬ db.Protected [(.company, pk)] := by
  rintro ⟨row, -, link, -, honDelete, hcollected⟩
  exact not_protect_of_isReached link.1 (isReached_of_mem_collected hcollected) honDelete

theorem restricted_iff : db.Restricted [(.company, pk)] ↔
    ∃ field ∈ checkedRelations ++ uncheckedRelations, relatedExists db field pk = true := by
  constructor
  · rintro ⟨row, hrow, -, ⟨field, pk'⟩, hlink, honDelete, hcollected⟩
    obtain ⟨htarget, hfield⟩ := restrict_of_isReached field (isReached_of_mem_collected hcollected) honDelete
    have hreferred : schema.referred (field, pk') = (.company, pk') := congrArg (·, pk') htarget
    rw [hreferred, company_mem_collected] at hcollected
    subst hcollected
    exact ⟨field, List.mem_append.mpr hfield, List.any_eq_true.mpr ⟨row, hrow, decide_eq_true hlink⟩⟩
  · rintro ⟨field, hfield, hexists⟩
    obtain ⟨row, hrow, hlink⟩ := List.any_eq_true.mp hexists
    obtain ⟨htarget, honDelete, hreached⟩ := restricts field hfield
    have hmodel : field.foreignKey.model = row.model := (db.formed row hrow).2 _ (of_decide_eq_true hlink)
    refine ⟨row, hrow, fun hcollected => ?_, (field, pk), of_decide_eq_true hlink, honDelete, ?_⟩
    · have hrowReached : isReached row.model = true := isReached_of_mem_collected hcollected
      rw [← hmodel, hreached] at hrowReached
      exact nomatch hrowReached
    · have hreferred : schema.referred (field, pk) = (.company, pk) := congrArg (·, pk) htarget
      rw [hreferred]
      exact company_mem_collected.mpr rfl

theorem keeps_of_deleteSiae (h : deleteSiae db siae = .ok db') : Keeps db db' := by
  intro row hrow hmodel
  refine Database.delete_keeps h hrow fun hcollected => ?_
  have hreached : isReached row.model = true := isReached_of_mem_collected hcollected
  rw [not_isReached_of_kept row.model hmodel] at hreached
  exact nomatch hreached

/-! ## The assignments that lose their company -/

theorem fk_release_company (hrow : row ∈ db.rows) :
    (schema.release (db.collected [(.company, pk)]) row).fk .jobSeekerAssignmentCompany = some pk' ↔
      row.fk .jobSeekerAssignmentCompany = some pk' ∧ pk' ≠ pk := by
  rw [Schema.fk_release_eq_some_iff (db.formed row hrow)]
  exact and_congr_right fun _ => not_congr ((and_iff_right rfl).trans company_mem_collected)

/-- The other foreign keys of an assignment are kept. -/
theorem fk_release (pk : Nat) (field : Relation) (hrow : row ∈ db.rows)
    (hfield : field.foreignKey.onDelete ≠ .setNull ∨ isReached field.foreignKey.target = false) :
    (schema.release (db.collected [(.company, pk)]) row).fk field = row.fk field := by
  ext pk'
  rw [Schema.fk_release_eq_some_iff (db.formed row hrow)]
  refine and_iff_left ?_
  rintro ⟨honDelete, hcollected⟩
  rcases hfield with hfield | hfield
  · exact hfield honDelete
  · have htarget : isReached field.foreignKey.target = true := isReached_of_mem_collected hcollected
    rw [hfield] at htarget
    exact nomatch htarget

theorem release_mem_survivors (hrow : row ∈ db.rows) (h : row.model = .jobSeekerAssignment) :
    schema.release (db.collected [(.company, pk)]) row ∈ schema.survivors db.rows (db.collected [(.company, pk)]) := by
  refine Schema.mem_survivors.mpr ⟨row, hrow, fun hcollected => ?_, rfl⟩
  have hreached : isReached row.model = true := isReached_of_mem_collected hcollected
  rw [h] at hreached
  exact nomatch hreached

theorem fk_release_company_eq_none (hrow : row ∈ db.rows) :
    (schema.release (db.collected [(.company, pk)]) row).fk .jobSeekerAssignmentCompany = none ↔
      row.fk .jobSeekerAssignmentCompany = none ∨ row.fk .jobSeekerAssignmentCompany = some pk := by
  rw [Option.eq_none_iff_forall_ne_some]
  simp only [ne_eq, fk_release_company hrow, not_and, not_not]
  cases row.fk .jobSeekerAssignmentCompany <;> simp

/-- An assignment of the company, which has no organization then. -/
theorem assignment_of_link (hrow : row ∈ db.rows) (hlink : (.jobSeekerAssignmentCompany, pk) ∈ row.links) :
    row.model = .jobSeekerAssignment ∧ row.fk .jobSeekerAssignmentCompany = some pk ∧
      row.fk .jobSeekerAssignmentPrescriberOrganization = none := by
  have hmodel : row.model = .jobSeekerAssignment := ((db.formed row hrow).2 _ hlink).symm
  have hcompany := (Schema.fk_eq_some_iff (db.formed row hrow)).mpr hlink
  refine ⟨hmodel, hcompany, ?_⟩
  rcases ((check_iff row).mp (db.accepted.1 row hrow) hmodel).1 with hnone | hnone
  · exact nomatch hcompany.symm.trans hnone
  · exact hnone

theorem check_release (hrow : row ∈ db.rows) (h : AssignmentsCanBeReleased db pk) :
    schema.check (schema.release (db.collected [(.company, pk)]) row) = true := by
  refine (check_iff _).mpr fun hmodel => ?_
  have horganization := fk_release pk .jobSeekerAssignmentPrescriberOrganization hrow (.inr rfl)
  obtain ⟨hone, hunknown⟩ := (check_iff row).mp (db.accepted.1 row hrow) hmodel
  rw [horganization, fk_release_company_eq_none hrow]
  refine ⟨hone.imp_left .inl, fun hadvisor hcompany => ?_⟩
  rcases hcompany with hcompany | hcompany
  · exact hunknown hadvisor hcompany
  · have hlink := (Schema.fk_eq_some_iff (db.formed row hrow)).mp hcompany
    exact absurd ((h row hrow hlink).1.symm.trans hadvisor) nofun

/-- Two assignments of which only the first one loses its company stay different. -/
theorem not_conflict_of_released (h : AssignmentsCanBeReleased db pk) (ha : a ∈ db.rows) (hb : b ∈ db.rows)
    (hmodel : b.model = .jobSeekerAssignment)
    (hjobSeeker : b.fk .jobSeekerAssignmentJobSeeker = a.fk .jobSeekerAssignmentJobSeeker)
    (hprofessional : b.fk .jobSeekerAssignmentProfessional = a.fk .jobSeekerAssignmentProfessional)
    (horganization : b.fk .jobSeekerAssignmentPrescriberOrganization = a.fk .jobSeekerAssignmentPrescriberOrganization)
    (hcompany : a.fk .jobSeekerAssignmentCompany = some pk) : b.fk .jobSeekerAssignmentCompany ≠ none := by
  have hlink := (Schema.fk_eq_some_iff (db.formed a ha)).mp hcompany
  exact (h a ha hlink).2 b hb hmodel hjobSeeker hprofessional
    (horganization.trans (assignment_of_link ha hlink).2.2)

theorem conflict_release (h : AssignmentsCanBeReleased db pk) (ha : a ∈ db.rows) (hb : b ∈ db.rows)
    (hkey : a.key ≠ b.key) :
    schema.conflict (schema.release (db.collected [(.company, pk)]) a)
      (schema.release (db.collected [(.company, pk)]) b) = false := by
  refine Bool.eq_false_iff.mpr fun hconflict => ?_
  obtain ⟨⟨hmodela, hmodelb⟩, hjobSeeker, hprofessional, horganization, hcompany⟩ := (conflict_iff _ _).mp hconflict
  rw [fk_release _ _ ha (.inl (by decide)), fk_release _ _ hb (.inl (by decide))] at hjobSeeker hprofessional
  rw [fk_release _ _ ha (.inr rfl), fk_release _ _ hb (.inr rfl)] at horganization
  have hdifferent : a.fk .jobSeekerAssignmentCompany ≠ b.fk .jobSeekerAssignmentCompany := by
    intro hsame
    have hboth := (conflict_iff a b).mpr ⟨⟨hmodela, hmodelb⟩, hjobSeeker, hprofessional, horganization, hsame⟩
    exact absurd ((db.accepted.2 a ha b hb hkey).symm.trans hboth) nofun
  cases hreleased : (schema.release (db.collected [(.company, pk)]) a).fk .jobSeekerAssignmentCompany with
  | some pk' =>
      have hcompanya := ((fk_release_company ha).mp hreleased).1
      have hcompanyb := ((fk_release_company hb).mp (hcompany ▸ hreleased)).1
      exact hdifferent (hcompanya.trans hcompanyb.symm)
  | none =>
      have hnonea := (fk_release_company_eq_none ha).mp hreleased
      have hnoneb := (fk_release_company_eq_none hb).mp (hcompany ▸ hreleased)
      rcases hnonea with hnonea | hnonea <;> rcases hnoneb with hnoneb | hnoneb
      · exact hdifferent (hnonea.trans hnoneb.symm)
      · exact not_conflict_of_released h hb ha hmodela hjobSeeker hprofessional horganization hnoneb hnonea
      · exact not_conflict_of_released h ha hb hmodelb hjobSeeker.symm hprofessional.symm horganization.symm hnonea
          hnoneb
      · exact hdifferent (hnonea.trans hnoneb.symm)

theorem accepts_iff : schema.Accepts (schema.survivors db.rows (db.collected [(.company, pk)])) ↔
    AssignmentsCanBeReleased db pk := by
  constructor
  · intro haccepts a ha hlink
    obtain ⟨hmodel, hcompany, horganization⟩ := assignment_of_link ha hlink
    have hnone := (fk_release_company_eq_none ha).mpr (.inr hcompany)
    have horganizationa := fk_release pk .jobSeekerAssignmentPrescriberOrganization ha (.inr rfl)
    constructor
    · have hunknown := ((check_iff _).mp (haccepts.1 _ (release_mem_survivors ha hmodel)) hmodel).2
      refine Bool.eq_false_iff.mpr fun hadvisor => hunknown hadvisor hnone ?_
      exact horganizationa.trans horganization
    · intro b hb hmodelb hjobSeeker hprofessional horganizationb hcompanyb
      have hkey : b.key ≠ a.key := by
        intro hkey
        rw [List.inj_on_of_nodup_map db.nodup hb ha hkey, hcompany] at hcompanyb
        exact nomatch hcompanyb
      refine Bool.eq_false_iff.mp
        (haccepts.2 _ (release_mem_survivors hb hmodelb) _ (release_mem_survivors ha hmodel) hkey)
        ((conflict_iff _ _).mpr ⟨⟨hmodelb, hmodel⟩, ?_, ?_, ?_, ?_⟩)
      · rw [fk_release _ _ hb (.inl (by decide)), fk_release _ _ ha (.inl (by decide)), hjobSeeker]
      · rw [fk_release _ _ hb (.inl (by decide)), fk_release _ _ ha (.inl (by decide)), hprofessional]
      · rw [horganizationa, fk_release _ _ hb (.inr rfl), horganization, horganizationb]
      · exact ((fk_release_company_eq_none hb).mpr (.inl hcompanyb)).trans hnone.symm
  · intro h
    constructor
    · intro row' hrow'
      obtain ⟨row, hrow, -, rfl⟩ := Schema.mem_survivors.mp hrow'
      exact check_release hrow h
    · intro a' ha' b' hb' hkey
      obtain ⟨a, ha, -, rfl⟩ := Schema.mem_survivors.mp ha'
      obtain ⟨b, hb, -, rfl⟩ := Schema.mem_survivors.mp hb'
      exact conflict_release h ha hb hkey

/-! ## The clean-up -/

theorem deleteSiae_succeeds_iff (h : Unblocked db siae.pk) :
    (∃ db', deleteSiae db siae = .ok db') ↔ CanBeDeleted db siae.pk := by
  rw [deleteSiae, Database.delete_succeeds_iff, and_iff_right not_protected, restricted_iff, accepts_iff, CanBeDeleted]
  refine and_congr_left fun _ => ?_
  simp only [List.mem_append, not_exists, not_and, Bool.not_eq_true]
  exact ⟨fun hall field hfield => hall field (.inr hfield), fun hunchecked field hfield =>
    hfield.elim (h.1 field) (hunchecked field)⟩

/-! ## The loop -/

theorem Keeps.refl (db : Database) : Keeps db db := fun row hrow _ => ⟨row, hrow, rfl⟩

theorem Keeps.trans {db₁ db₂ db₃ : Database} (h₁₂ : Keeps db₁ db₂) (h₂₃ : Keeps db₂ db₃) : Keeps db₁ db₃ := by
  intro row hrow hmodel
  obtain ⟨row', hrow', hkey'⟩ := h₁₂ row hrow hmodel
  have hmodel' : row'.model = row.model := congrArg Prod.fst hkey'
  obtain ⟨row'', hrow'', hkey''⟩ := h₂₃ row' hrow' (hmodel' ▸ hmodel)
  exact ⟨row'', hrow'', hkey''.trans hkey'⟩

theorem keeps_of_cleanupSiae {now : Int} (h : cleanupSiae db now siae = .ok db') : Keeps db db' := by
  obtain ⟨expired, -, h⟩ := bind_eq_ok.mp h
  cases expired with
  | false =>
      obtain rfl := Except.ok.inj h
      exact .refl db
  | true =>
      obtain ⟨deletable, -, h⟩ := bind_eq_ok.mp h
      cases deletable with
      | true => exact keeps_of_deleteSiae (mapError_eq_ok.mp h)
      | false =>
          cases hsearchable : siae.isSearchable with
          | true =>
              simp only [Bool.false_eq_true, hsearchable, if_true, if_false] at h
              exact fun row hrow _ => Database.save_keeps (mapError_eq_ok.mp h) hrow
          | false =>
              simp only [Bool.false_eq_true, hsearchable, if_false] at h
              obtain rfl := Except.ok.inj h
              exact .refl db

theorem keeps_of_foldlM {now : Int} {siaes : List Siae}
    (h : siaes.foldlM (fun db siae => cleanupSiae db now siae) db = .ok db') : Keeps db db' := by
  induction siaes generalizing db with
  | nil =>
      obtain rfl := Except.ok.inj h
      exact .refl db
  | cons siae rest ih =>
      rw [List.foldlM_cons] at h
      cases hstep : cleanupSiae db now siae with
      | error e =>
          rw [hstep] at h
          exact nomatch h
      | ok db₁ =>
          rw [hstep] at h
          exact (keeps_of_cleanupSiae hstep).trans (ih h)

end Itou.Companies.CleanUp
