import Itou.Archive.Utils

/-!
# What the deletion of users reaches

The users and the rows that go with them: other rows refer to the diagnoses only.
-/

namespace Itou.Archive

open Itou.Lib.Deletions Itou.Relations

/-! ## What a deletion of users reaches -/

/-- The models of the rows that are reached, and those of the relations to them that do not cascade. -/
def isReached : Model → Bool
  | .user | .activatedService | .companyMembership | .disabledNotification | .eligibilityDiagnosis | .emailAddress
  | .emailConfirmation | .employerInvitation | .followUpGroup | .followUpGroupMembership | .geiqEligibilityDiagnosis
  | .geiqSelectedAdministrativeCriteria | .identityCertification | .institutionMembership | .invitation
  | .invitationRequest | .itouStaticDevice | .itouStaticToken | .itouTOTPDevice | .jobSeekerAssignment | .jobSeekerProfile
  | .laborInspectorInvitation | .logEntry | .mobilizationEvent | .nirModificationRequest | .notificationSettings
  | .participation | .prescriberMembership | .prescriberWithOrgInvitation | .savedSearch
  | .selectedAdministrativeCriteria | .token | .totpDevice | .userGroups | .userUserPermissions => true
  | _ => false

theorem isReached_of_cascade (r : Relation) (honDelete : r.foreignKey.onDelete = .cascade)
    (htarget : isReached r.foreignKey.target = true) : isReached r.foreignKey.model = true := by
  revert honDelete htarget
  cases r <;> decide

/-- The relations that do not cascade, to what is reached: those to the users, and those to the diagnoses. -/
theorem target_of_isReached (r : Relation) (honDelete : r.foreignKey.onDelete ≠ .cascade)
    (htarget : isReached r.foreignKey.target = true) :
    r.foreignKey.target = .user ∨ r.foreignKey.onDelete = .restrict ∧ ∃ fields ∈ diagnosisRelations, fields.1 = r := by
  revert honDelete htarget
  cases r <;> decide

/-- What refers to a diagnosis is not reached, and restricts the deletion. -/
theorem restrict_diagnosis : ∀ fields ∈ diagnosisRelations,
    isReached fields.1.foreignKey.model = false ∧ fields.1.foreignKey.onDelete = .restrict := by
  decide

theorem diagnosis_ne_user : ∀ fields ∈ diagnosisRelations, fields.1.foreignKey.target ≠ .user := by
  decide

/-- A diagnosis goes with its job seeker. -/
theorem cascade_jobSeeker : ∀ fields ∈ diagnosisRelations, fields.2.foreignKey =
    ⟨fields.1.foreignKey.target, .user, .cascade⟩ := by
  decide

/-- Only the deletion of its job seeker deletes a diagnosis, and no deletion of another row deletes a user. -/
theorem cascade_to_diagnosis (fields : Relation × Relation) (h : fields ∈ diagnosisRelations) (r : Relation)
    (honDelete : r.foreignKey.onDelete = .cascade) (hmodel : r.foreignKey.model = fields.1.foreignKey.target) :
    r = fields.2 := by
  simp only [diagnosisRelations, List.mem_cons, List.not_mem_nil, or_false] at h
  revert honDelete hmodel
  rcases h with rfl | rfl | rfl <;> cases r <;> decide

theorem not_cascade_to_user (r : Relation) (honDelete : r.foreignKey.onDelete = .cascade) :
    r.foreignKey.model ≠ .user := by
  revert honDelete
  cases r <;> decide

variable {db : Database} {qs users : List Nat} {row : Row} {k : Model × Nat} {pk : Nat}
  {fields : Relation × Relation}

theorem isReached_of_mem_collected (h : k ∈ db.collected (users.map fun pk => (.user, pk))) : isReached k.1 = true := by
  refine Schema.Collected.model (P := fun model => isReached model = true) ?_ db.formed isReached_of_cascade
    (Database.mem_collected.mp h)
  intro k hk
  obtain ⟨pk, -, rfl⟩ := List.mem_map.mp hk
  rfl

theorem user_mem_collected : (.user, pk) ∈ db.collected (users.map fun pk => (.user, pk)) ↔ pk ∈ users := by
  rw [Database.mem_collected, Schema.collected_iff]
  constructor
  · rintro (hroot | ⟨row, hrow, hkey, link, hlink, honDelete, -⟩)
    · simpa using hroot
    · have hmodel : link.1.foreignKey.model = row.model := (db.formed row hrow).2 link hlink
      exact absurd (hmodel.trans (congrArg Prod.fst hkey)) (not_cascade_to_user link.1 honDelete)
  · intro hpk
    exact .inl (List.mem_map.mpr ⟨pk, hpk, rfl⟩)

theorem diagnosis_mem_collected (h : fields ∈ diagnosisRelations) :
    (fields.1.foreignKey.target, pk) ∈ db.collected (users.map fun pk => (.user, pk)) ↔
      ∃ diagnosis ∈ db.rows, diagnosis.pk = pk ∧ ∃ user ∈ users, (fields.2, user) ∈ diagnosis.links := by
  have hjobSeeker : fields.2.foreignKey = _ := cascade_jobSeeker fields h
  have hreferred (user : Nat) : schema.referred (fields.2, user) = (.user, user) :=
    congrArg (·, user) (congrArg ForeignKey.target hjobSeeker)
  rw [Database.mem_collected, Schema.collected_iff]
  constructor
  · rintro (hroot | ⟨row, hrow, hkey, ⟨field, user⟩, hlink, honDelete, hlinked⟩)
    · obtain ⟨user, -, huser⟩ := List.mem_map.mp hroot
      exact absurd (congrArg Prod.fst huser).symm (diagnosis_ne_user fields h)
    · have hmodel : field.foreignKey.model = row.model := (db.formed row hrow).2 _ hlink
      obtain rfl := cascade_to_diagnosis fields h field honDelete (hmodel.trans (congrArg Prod.fst hkey))
      rw [hreferred, ← Database.mem_collected, user_mem_collected] at hlinked
      exact ⟨row, hrow, congrArg Prod.snd hkey, user, hlinked, hlink⟩
  · rintro ⟨diagnosis, hdiagnosis, rfl, user, huser, hlink⟩
    have hmodel : fields.2.foreignKey.model = diagnosis.model := (db.formed diagnosis hdiagnosis).2 _ hlink
    refine .inr ⟨diagnosis, hdiagnosis, ?_, (fields.2, user), hlink, congrArg ForeignKey.onDelete hjobSeeker, ?_⟩
    · rw [hjobSeeker] at hmodel
      exact congrArg (·, diagnosis.pk) hmodel.symm
    · rw [hreferred, ← Database.mem_collected]
      exact user_mem_collected.mpr huser

/-! ## The users that are kept -/

theorem getUserReverseRelations_false (field : Relation) : getUserReverseRelations false field = true ↔
    field.foreignKey.target = .user ∧ field.foreignKey.onDelete ≠ .cascade := by
  simp [getUserReverseRelations]

theorem mem_excludeUsersWithBlockingRelations :
    pk ∈ excludeUsersWithBlockingRelations db qs ↔ pk ∈ qs ∧ ∀ row ∈ db.rows, ∀ field : Relation,
      field.foreignKey.target = .user → field.foreignKey.onDelete ≠ .cascade → (field, pk) ∉ row.links := by
  rw [excludeUsersWithBlockingRelations, List.mem_filter, Bool.not_eq_true', List.any_eq_false]
  refine and_congr_right fun _ => forall₂_congr fun row _ => ?_
  simp only [List.any_eq_true, Bool.and_eq_true, getUserReverseRelations_false, beq_iff_eq, not_exists, not_and]
  constructor
  · intro h field htarget honDelete hlink
    exact h (field, pk) hlink ⟨htarget, honDelete⟩ rfl
  · rintro h ⟨field, user⟩ hlink ⟨htarget, honDelete⟩ rfl
    exact h field htarget honDelete hlink

/-- When the diagnoses of the users are unused, only cascading relations refer to what is deleted. -/
theorem not_refersTo (hkept : ∀ pk ∈ users, pk ∈ excludeUsersWithBlockingRelations db qs)
    (hunused : ∀ pk ∈ users, DiagnosesAreUnused db pk) (hrow : row ∈ db.rows) {action : OnDelete}
    (haction : action ≠ .cascade) : ¬ schema.RefersTo action (db.collected (users.map fun pk => (.user, pk))) row := by
  rintro ⟨⟨field, pk⟩, hlink, honDelete, hcollected⟩
  have hfield : field.foreignKey.onDelete ≠ .cascade := fun h => haction (honDelete.symm.trans h)
  rcases target_of_isReached field hfield (isReached_of_mem_collected hcollected) with
    huser | ⟨-, fields, hfields, rfl⟩
  · have hreferred : schema.referred (field, pk) = (.user, pk) := congrArg (·, pk) huser
    rw [hreferred, user_mem_collected] at hcollected
    exact (mem_excludeUsersWithBlockingRelations.mp (hkept pk hcollected)).2 row hrow field huser hfield hlink
  · obtain ⟨diagnosis, hdiagnosis, rfl, user, huser, hjobSeeker⟩ := (diagnosis_mem_collected hfields).mp hcollected
    exact hunused user huser fields hfields diagnosis hdiagnosis hjobSeeker row hrow hlink

/-- A row that refers to a diagnosis of one of the users restricts the deletion. -/
theorem restricted_of_used (hpk : pk ∈ users) (h : ¬ DiagnosesAreUnused db pk) :
    db.Restricted (users.map fun pk => (.user, pk)) := by
  simp only [DiagnosesAreUnused, not_forall, not_not] at h
  obtain ⟨fields, hfields, diagnosis, hdiagnosis, hjobSeeker, row, hrow, hlink⟩ := h
  obtain ⟨hreached, honDelete⟩ := restrict_diagnosis fields hfields
  have hmodel : fields.1.foreignKey.model = row.model := (db.formed row hrow).2 _ hlink
  refine ⟨row, hrow, fun hcollected => ?_, (fields.1, diagnosis.pk), hlink, honDelete,
    (diagnosis_mem_collected hfields).mpr ⟨diagnosis, hdiagnosis, rfl, pk, hpk, hjobSeeker⟩⟩
  have hrowReached : isReached row.model = true := isReached_of_mem_collected hcollected
  rw [← hmodel, hreached] at hrowReached
  exact nomatch hrowReached

end Itou.Archive
