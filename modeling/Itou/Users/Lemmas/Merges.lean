import Itou.Archive.Lemmas.Utils
import Itou.Lib.Outcomes
import Itou.Users.DeduplicateJobSeekers

/-!
# What the merges leave

The rows that are deleted with the merged accounts are those that a chain of cascading relations links to one of them,
by other relations than the diagnoses, which are linked to another account before. Each merge deletes what the account
adds to them.
-/

namespace Itou.DeduplicateJobSeekers

open Itou.Lib Itou.Lib.Deletions Itou.JobApplications
open Itou.Relations (Model Relation ForeignKey)

/-! ## The relations -/

theorem user_of_cascade_profile (r : Relation) (honDelete : r.foreignKey.onDelete = .cascade)
    (hmodel : r.foreignKey.model = .jobSeekerProfile) : r = .jobSeekerProfileUser := by
  revert honDelete hmodel
  cases r <;> decide

theorem jobSeeker_of_cascade_diagnosis (r : Relation) (honDelete : r.foreignKey.onDelete = .cascade)
    (hmodel : r.foreignKey.model = .eligibilityDiagnosis) : r = .eligibilityDiagnosisJobSeeker := by
  revert honDelete hmodel
  cases r <;> decide

theorem jobSeeker_of_cascade_geiqDiagnosis (r : Relation) (honDelete : r.foreignKey.onDelete = .cascade)
    (hmodel : r.foreignKey.model = .geiqEligibilityDiagnosis) : r = .geiqEligibilityDiagnosisJobSeeker := by
  revert honDelete hmodel
  cases r <;> decide

theorem not_cascade_to_application (r : Relation) (honDelete : r.foreignKey.onDelete = .cascade) :
    r.foreignKey.model ≠ .jobApplication := by
  revert honDelete
  cases r <;> decide

theorem restrict_ne_certification (r : Relation) (honDelete : r.foreignKey.onDelete = .restrict) :
    r.foreignKey.model ≠ .identityCertification := by
  revert honDelete
  cases r <;> decide

theorem restrict_ne_profile (r : Relation) (honDelete : r.foreignKey.onDelete = .restrict) :
    r.foreignKey.model ≠ .jobSeekerProfile := by
  revert honDelete
  cases r <;> decide

theorem target_ne_certification (r : Relation) : r.foreignKey.target ≠ .identityCertification := by
  cases r <;> decide

/-- An approval is all that protects an account. -/
theorem approvalUser_of_protect (r : Relation) (honDelete : r.foreignKey.onDelete = .protect) : r = .approvalUser := by
  revert honDelete
  cases r <;> decide

variable {db s s' : Database} {accounts : List Nat} {merged : List (Nat × Nat)} {row row' : Row} {r : Relation}
  {user target pk : Nat} {k : Model × Nat} {keys : List (Model × Nat)}

theorem model_of_fk (h : schema.Formed row) (hfk : row.fk r = some pk) : r.foreignKey.model = row.model :=
  h.2 _ ((Schema.fk_eq_some_iff h).mp hfk)

/-! ## What goes with the accounts -/

theorem gone_of_mem (h : pk ∈ accounts) : Gone db accounts (.user, pk) := .root (List.mem_map.mpr ⟨pk, h, rfl⟩)

theorem gone_of_link (hrow : row ∈ db.rows) (hmodel : row.model ≠ .eligibilityDiagnosis) (hfk : row.fk r = some pk)
    (honDelete : r.foreignKey.onDelete = .cascade) (h : Gone db accounts (r.foreignKey.target, pk)) :
    Gone db accounts row.key := by
  have hlink : (r, pk) ∈ row.links := (Schema.fk_eq_some_iff (db.formed row hrow)).mp hfk
  exact .cascade (List.mem_filter.mpr ⟨hrow, decide_eq_true hmodel⟩) hlink honDelete h

theorem gone_cases (h : Gone db accounts k) : (∃ pk ∈ accounts, k = (.user, pk)) ∨
    ∃ row ∈ db.rows, row.key = k ∧ row.model ≠ .eligibilityDiagnosis ∧ ∃ r pk, row.fk r = some pk ∧
      r.foreignKey.onDelete = .cascade ∧ Gone db accounts (r.foreignKey.target, pk) := by
  rcases Schema.collected_iff.mp h with hroot | ⟨row, hrow, hkey, ⟨r, pk⟩, hlink, honDelete, hgone⟩
  · obtain ⟨pk, hpk, heq⟩ := List.mem_map.mp hroot
    exact .inl ⟨pk, hpk, heq.symm⟩
  · obtain ⟨hrow, hmodel⟩ := List.mem_filter.mp hrow
    exact .inr ⟨row, hrow, hkey, of_decide_eq_true hmodel, r, pk,
      (Schema.fk_eq_some_iff (db.formed row hrow)).mpr hlink, honDelete, hgone⟩

theorem gone_mono {more : List Nat} (h : Gone db accounts k) (hsub : ∀ pk ∈ accounts, pk ∈ more) : Gone db more k := by
  induction h with
  | root hk =>
      obtain ⟨pk, hpk, rfl⟩ := List.mem_map.mp hk
      exact gone_of_mem (hsub pk hpk)
  | cascade hrow hlink honDelete _ ih => exact .cascade hrow hlink honDelete ih

theorem gone_user : Gone db accounts (.user, pk) ↔ pk ∈ accounts := by
  refine ⟨fun h => ?_, gone_of_mem⟩
  rcases gone_cases h with ⟨pk', hpk', heq⟩ | ⟨row, hrow, hkey, -, r, pk', hfk, honDelete, -⟩
  · cases heq
    exact hpk'
  · have hmodel : r.foreignKey.model = row.model := model_of_fk (db.formed row hrow) hfk
    exact absurd (hmodel.trans (congrArg Prod.fst hkey)) (Archive.not_cascade_to_user r honDelete)

theorem not_gone_application : ¬ Gone db accounts (.jobApplication, pk) := by
  intro h
  rcases gone_cases h with ⟨pk', -, heq⟩ | ⟨row, hrow, hkey, -, r, pk', hfk, honDelete, -⟩
  · cases heq
  · have hmodel : r.foreignKey.model = row.model := model_of_fk (db.formed row hrow) hfk
    exact not_cascade_to_application r honDelete (hmodel.trans (congrArg Prod.fst hkey))

theorem not_gone_diagnosis : ¬ Gone db accounts (.eligibilityDiagnosis, pk) := by
  intro h
  rcases gone_cases h with ⟨pk', -, heq⟩ | ⟨row, -, hkey, hmodel, -⟩
  · cases heq
  · exact hmodel (congrArg Prod.fst hkey)

/-- A profile has the primary key of its user. -/
theorem fk_profile (hrow : row ∈ db.rows) (hmodel : row.model = .jobSeekerProfile) :
    row.fk .jobSeekerProfileUser = some row.pk := by
  have hcheck : schema.check row = true := db.accepted.1 row hrow
  simp only [schema, hmodel, checkProfile, decide_true, Bool.not_true, Bool.false_or, Bool.and_eq_true,
    decide_eq_true_eq] at hcheck
  exact hcheck.1.2

theorem gone_profile (hrow : row ∈ db.rows) (hmodel : row.model = .jobSeekerProfile) :
    Gone db accounts row.key ↔ row.pk ∈ accounts := by
  constructor
  · intro h
    rcases gone_cases h with ⟨pk', -, heq⟩ | ⟨row', hrow', hkey, -, r, pk', hfk, honDelete, hgone⟩
    · cases hmodel.symm.trans (congrArg Prod.fst heq)
    · obtain rfl := Database.eq_of_key_eq hrow hrow' hkey
      have hr : r = .jobSeekerProfileUser :=
        user_of_cascade_profile r honDelete ((model_of_fk (db.formed row' hrow') hfk).trans hmodel)
      subst hr
      rw [fk_profile hrow' hmodel] at hfk
      cases hfk
      exact gone_user.mp hgone
  · intro h
    have hdiagnosis : row.model ≠ .eligibilityDiagnosis := by rw [hmodel]; decide
    exact gone_of_link hrow hdiagnosis (fk_profile hrow hmodel) rfl (gone_of_mem h)

theorem not_gone_nil : ¬ Gone db [] k := by
  intro h
  induction h with
  | root hk => cases hk
  | cascade _ _ _ _ ih => exact ih

/-! ## How the rows change -/

/-- The account that an account is merged into, or itself. -/
def moved (merged : List (Nat × Nat)) (pk : Nat) : Nat := (merged.lookup pk).getD pk

theorem moved_concat (hsource : user ∉ merged.map Prod.fst) (htarget : user ∉ merged.map Prod.snd) :
    moved (merged ++ [(user, target)]) pk = if moved merged pk = user then target else moved merged pk := by
  rw [moved, moved, List.lookup_append]
  cases hlookup : merged.lookup pk with
  | some pk' =>
      obtain ⟨before, after, rfl, -⟩ := List.lookup_eq_some_iff.mp hlookup
      have hmem : (pk, pk') ∈ before ++ (pk, pk') :: after := List.mem_append_right before List.mem_cons_self
      have hne : pk' ≠ user := fun heq => htarget (heq ▸ List.mem_map_of_mem hmem)
      exact (if_neg hne).symm
  | none =>
      by_cases hpk : pk = user
      · subst hpk
        simp
      · have hbeq : (pk == user) = false := beq_false_of_ne hpk
        simp [List.lookup_cons, hbeq, hpk]

section Relink

variable (user target) (row)

@[simp] theorem columns_relinkApplication : (relinkApplication user target row).columns = row.columns := by
  unfold relinkApplication
  split
  · split <;> rfl
  · rfl

@[simp] theorem columns_relinkDiagnosis : (relinkDiagnosis user target row).columns = row.columns := by
  unfold relinkDiagnosis
  split <;> rfl

theorem relinkApplication_of_ne (h : row.model ≠ .jobApplication) : relinkApplication user target row = row :=
  if_neg fun hrow => h hrow.1

theorem relinkDiagnosis_of_ne (h : row.model ≠ .eligibilityDiagnosis) : relinkDiagnosis user target row = row :=
  if_neg fun hrow => h hrow.1

theorem fk_relinkApplication_jobSeeker (h : schema.Formed row) :
    (relinkApplication user target row).fk .jobApplicationJobSeeker =
      (row.fk .jobApplicationJobSeeker).map fun pk => if pk = user then target else pk := by
  cases hfk : row.fk .jobApplicationJobSeeker with
  | none =>
      rw [relinkApplication, if_neg fun hrow => Option.some_ne_none user (hrow.2.symm.trans hfk), hfk]
      rfl
  | some pk =>
      have hmodel : row.model = .jobApplication := (model_of_fk h hfk).symm
      by_cases hpk : pk = user
      · subst hpk
        rw [relinkApplication, if_pos ⟨hmodel, hfk⟩]
        split <;> simp [Row.fk_set]
      · rw [relinkApplication, if_neg fun hrow => hpk (Option.some.inj (hfk.symm.trans hrow.2)), hfk]
        simp [hpk]

theorem fk_relinkApplication_of_not_isRelinked (h : ¬ IsRelinked row r) :
    (relinkApplication user target row).fk r = row.fk r := by
  obtain ⟨hjobSeeker, hsender⟩ := not_or.mp h
  unfold relinkApplication
  split
  · split
    next hkind => rw [Row.fk_set, if_neg fun hr => hsender ⟨hr, hkind⟩, Row.fk_set, if_neg hjobSeeker]
    next => rw [Row.fk_set, if_neg hjobSeeker]
  · rfl

theorem fk_relinkDiagnosis_jobSeeker (h : schema.Formed row) :
    (relinkDiagnosis user target row).fk .eligibilityDiagnosisJobSeeker =
      (row.fk .eligibilityDiagnosisJobSeeker).map fun pk => if pk = user then target else pk := by
  cases hfk : row.fk .eligibilityDiagnosisJobSeeker with
  | none =>
      rw [relinkDiagnosis, if_neg fun hrow => Option.some_ne_none user (hrow.2.symm.trans hfk), hfk]
      rfl
  | some pk =>
      have hmodel : row.model = .eligibilityDiagnosis := (model_of_fk h hfk).symm
      by_cases hpk : pk = user
      · subst hpk
        rw [relinkDiagnosis, if_pos ⟨hmodel, hfk⟩]
        simp [Row.fk_set]
      · rw [relinkDiagnosis, if_neg fun hrow => hpk (Option.some.inj (hfk.symm.trans hrow.2)), hfk]
        simp [hpk]

theorem fk_relinkDiagnosis_of_ne (h : r ≠ .eligibilityDiagnosisJobSeeker) :
    (relinkDiagnosis user target row).fk r = row.fk r := by
  unfold relinkDiagnosis
  split
  · rw [Row.fk_set, if_neg h]
  · rfl

end Relink

/-- What a row of the initial database has become. -/
structure Same (merged : List (Nat × Nat)) (row row' : Row) : Prop where
  key : row'.key = row.key
  jobSeeker : ∀ r ∈ [Relation.jobApplicationJobSeeker, .eligibilityDiagnosisJobSeeker],
    row'.fk r = (row.fk r).map (moved merged)
  fk : ∀ r, r.foreignKey.onDelete ≠ .setNull → r ≠ .eligibilityDiagnosisJobSeeker → ¬ IsRelinked row r →
    row'.fk r = row.fk r
  columns : row.model ≠ .jobSeekerProfile ∨ row.columns.nir ≠ "" → row'.columns = row.columns

theorem Same.model_eq (h : Same merged row row') : row'.model = row.model := congrArg Prod.fst h.key

theorem Same.pk_eq (h : Same merged row row') : row'.pk = row.pk := congrArg Prod.snd h.key

theorem Same.isRelinked_iff (h : Same merged row row') (hmodel : row.model ≠ .jobSeekerProfile) :
    IsRelinked row' r ↔ IsRelinked row r := by
  rw [IsRelinked, IsRelinked, h.columns (.inl hmodel)]

/-- A cascading relation is kept, but for that of a diagnosis to its job seeker. -/
theorem Same.cascade (h : Same merged row row') (honDelete : r.foreignKey.onDelete = .cascade)
    (hr : r ≠ .eligibilityDiagnosisJobSeeker) : row'.fk r = row.fk r := by
  refine h.fk r (by rw [honDelete]; decide) hr ?_
  rintro (rfl | ⟨rfl, -⟩) <;> cases honDelete

theorem same_refl (row : Row) : Same [] row row where
  key := rfl
  jobSeeker r _ := by cases h : row.fk r <;> rfl
  fk _ _ _ _ := rfl
  columns _ := rfl

theorem same_relink (h : Same merged row row') (hformed : schema.Formed row')
    (hsource : user ∉ merged.map Prod.fst) (htarget : user ∉ merged.map Prod.snd) :
    Same (merged ++ [(user, target)]) row (relinkDiagnosis user target (relinkApplication user target row')) where
  key := by rw [relinkDiagnosis_key, relinkApplication_key, h.key]
  jobSeeker r hr := by
    have hmoved (r : Relation) (hr : r ∈ [Relation.jobApplicationJobSeeker, .eligibilityDiagnosisJobSeeker]) :
        (row'.fk r).map (fun pk => if pk = user then target else pk) =
          (row.fk r).map (moved (merged ++ [(user, target)])) := by
      rw [h.jobSeeker r hr, Option.map_map]
      exact congrArg (Option.map · (row.fk r)) (funext fun pk => (moved_concat hsource htarget).symm)
    simp only [List.mem_cons, List.not_mem_nil, or_false] at hr
    rcases hr with rfl | rfl
    · rw [fk_relinkDiagnosis_of_ne _ _ _ (by decide), fk_relinkApplication_jobSeeker _ _ _ hformed]
      exact hmoved _ (by decide)
    · have hnot : ¬ IsRelinked row' .eligibilityDiagnosisJobSeeker := by
        rintro (hr | ⟨hr, -⟩) <;> cases hr
      rw [fk_relinkDiagnosis_jobSeeker _ _ _ (formed_relinkApplication user target row' hformed),
        fk_relinkApplication_of_not_isRelinked _ _ _ hnot]
      exact hmoved _ (by decide)
  fk r hnull hdiagnosis hnot := by
    rw [fk_relinkDiagnosis_of_ne _ _ _ hdiagnosis, ← h.fk r hnull hdiagnosis hnot]
    by_cases hmodel : row'.model = .jobApplication
    · have hprofile : row.model ≠ .jobSeekerProfile := by
        rw [← h.model_eq, hmodel]
        decide
      exact fk_relinkApplication_of_not_isRelinked _ _ _ fun hrelinked => hnot ((h.isRelinked_iff hprofile).mp hrelinked)
    · rw [relinkApplication_of_ne _ _ _ hmodel]
  columns hrow := by rw [columns_relinkDiagnosis, columns_relinkApplication, h.columns hrow]

theorem fk_relink_ne (hne : user ≠ target) (hformed : schema.Formed row)
    (hr : r ∈ [Relation.jobApplicationJobSeeker, .eligibilityDiagnosisJobSeeker]) :
    (relinkDiagnosis user target (relinkApplication user target row)).fk r ≠ some user := by
  have hmoved (o : Option Nat) : o.map (fun pk => if pk = user then target else pk) ≠ some user := by
    intro h
    obtain ⟨pk, -, hpk⟩ := Option.map_eq_some_iff.mp h
    split at hpk
    next => exact hne hpk.symm
    next hpk' => exact hpk' hpk
  simp only [List.mem_cons, List.not_mem_nil, or_false] at hr
  rcases hr with rfl | rfl
  · rw [fk_relinkDiagnosis_of_ne _ _ _ (by decide), fk_relinkApplication_jobSeeker _ _ _ hformed]
    exact hmoved _
  · rw [fk_relinkDiagnosis_jobSeeker _ _ _ (formed_relinkApplication user target row hformed)]
    exact hmoved _

/-! ## The constraints -/

theorem check_congr (hkey : row'.key = row.key) (hcolumns : row'.columns = row.columns)
    (hfk : ∀ r ∈ [Relation.jobSeekerProfileUser, .jobApplicationSender, .jobApplicationJobSeeker], row'.fk r = row.fk r) :
    schema.check row' = schema.check row := by
  have hmodel : row'.model = row.model := congrArg Prod.fst hkey
  have hpk : row'.pk = row.pk := congrArg Prod.snd hkey
  simp only [schema, checkProfile, checkSender, hmodel, hpk, hcolumns, hfk _ List.mem_cons_self,
    hfk .jobApplicationSender (by decide), hfk .jobApplicationJobSeeker (by decide)]

theorem check_profile (hmodel : row.model = .jobSeekerProfile) (hreason : row.columns.lackOfNirReason = "")
    (hfk : row.fk .jobSeekerProfileUser = some row.pk) : schema.check row = true := by
  simp [schema, checkProfile, hmodel, hreason, hfk]

theorem check_release (h : schema.Formed row) : schema.check (schema.release keys row) = schema.check row := by
  refine check_congr rfl rfl fun r hr => Schema.fk_release_of_ne h ?_
  revert r
  decide

/-- No deletion violates a constraint. -/
theorem accepts_survivors (s : Database) (keys : List (Model × Nat)) :
    schema.Accepts (schema.survivors s.rows keys) :=
  Schema.accepts_survivors_of_release s.accepted (fun row hrow => check_release (s.formed row hrow))
    fun _ _ _ _ => rfl

theorem check_relinkApplication (h : schema.check row = true) :
    schema.check (relinkApplication user target row) = true := by
  unfold relinkApplication
  split
  next hrow =>
    split
    next =>
      have hmodel : ((row.set .jobApplicationJobSeeker target).set .jobApplicationSender target).model =
          .jobApplication := hrow.1
      have hsender : ((row.set .jobApplicationJobSeeker target).set .jobApplicationSender target).fk
          .jobApplicationSender = some target := by rw [Row.fk_set, if_pos rfl]
      have hjobSeeker : ((row.set .jobApplicationJobSeeker target).set .jobApplicationSender target).fk
          .jobApplicationJobSeeker = some target := by rw [Row.fk_set, if_neg (by decide), Row.fk_set, if_pos rfl]
      simp [schema, checkSender, hmodel, hsender, hjobSeeker]
    next hkind => simp [schema, hrow.1, Row.set, checkSender, hkind]
  next => exact h

theorem check_relinkDiagnosis (h : schema.check row = true) : schema.check (relinkDiagnosis user target row) = true := by
  unfold relinkDiagnosis
  split
  next hrow => simp [schema, hrow.1, Row.set]
  next => exact h

theorem conflict_eq {a b a' b' : Row} (ha : a'.key = a.key ∧ a'.columns = a.columns)
    (hb : b'.key = b.key ∧ b'.columns = b.columns) : schema.conflict a' b' = schema.conflict a b := by
  have hamodel : a'.model = a.model := congrArg Prod.fst ha.1
  have hbmodel : b'.model = b.model := congrArg Prod.fst hb.1
  simp only [schema, sameNir, hamodel, hbmodel, ha.2, hb.2]

theorem conflict_iff {a b : Row} : schema.conflict a b = true ↔ a.model = .jobSeekerProfile ∧
    b.model = .jobSeekerProfile ∧ a.columns.nir = b.columns.nir ∧ a.columns.nir ≠ "" := by
  simp [schema, sameNir, and_assoc]

/-- The updates of a merge succeed, and its deletion is that of the account. -/
theorem mergeInto_eq (s : Database) (user target : Nat) : ∃ s' : Database,
    s'.rows = s.rows.map (fun row => relinkDiagnosis user target (relinkApplication user target row)) ∧
      mergeInto target s user = s'.delete [(.user, user)] := by
  have hupdate : ∃ s₁, s.update (relinkApplication user target) (relinkApplication_key user target)
      (formed_relinkApplication user target) = .ok s₁ :=
    Database.update_succeeds (fun row hrow => check_relinkApplication (s.accepted.1 row hrow))
      fun a _ b _ => conflict_eq ⟨relinkApplication_key user target a, columns_relinkApplication a user target⟩
        ⟨relinkApplication_key user target b, columns_relinkApplication b user target⟩
  obtain ⟨s₁, hs₁⟩ := hupdate
  have hupdate : ∃ s₂, s₁.update (relinkDiagnosis user target) (relinkDiagnosis_key user target)
      (formed_relinkDiagnosis user target) = .ok s₂ :=
    Database.update_succeeds (fun row hrow => check_relinkDiagnosis (s₁.accepted.1 row hrow))
      fun a _ b _ => conflict_eq ⟨relinkDiagnosis_key user target a, columns_relinkDiagnosis a user target⟩
        ⟨relinkDiagnosis_key user target b, columns_relinkDiagnosis b user target⟩
  obtain ⟨s₂, hs₂⟩ := hupdate
  refine ⟨s₂, ?_, ?_⟩
  · rw [Database.rows_of_update hs₂, Database.rows_of_update hs₁, List.map_map]
    rfl
  · rw [mergeInto, hs₁]
    simp only [bind, Except.bind, hs₂]

/-! ## How the database changes -/

/-- The database after some merges and some deletions of merged accounts. -/
structure After (db : Database) (accounts : List Nat) (merged : List (Nat × Nat)) (s : Database) : Prop where
  comes : ∀ row' ∈ s.rows, ∃ row ∈ db.rows, ¬ Gone db accounts row.key ∧ Same merged row row'
  kept : ∀ row ∈ db.rows, row.model ≠ .identityCertification → ¬ Gone db accounts row.key →
    ∃ row' ∈ s.rows, Same merged row row'
  nir : ∀ row' ∈ s.rows, row'.model = .jobSeekerProfile → row'.columns.nir ≠ "" →
    ∃ row ∈ db.rows, row.model = .jobSeekerProfile ∧ row.columns.nir = row'.columns.nir ∧
      (row.pk = row'.pk ∨ (row.pk, row'.pk) ∈ merged)

theorem after_start (db : Database) : After db [] [] db where
  comes row hrow := ⟨row, hrow, not_gone_nil, same_refl row⟩
  kept row hrow _ _ := ⟨row, hrow, same_refl row⟩
  nir row hrow hmodel _ := ⟨row, hrow, hmodel, rfl, .inl rfl⟩

theorem After.relink (h : After db accounts merged s) (hsource : user ∉ merged.map Prod.fst)
    (htarget : user ∉ merged.map Prod.snd)
    (hrows : s'.rows = s.rows.map (fun row => relinkDiagnosis user target (relinkApplication user target row))) :
    After db accounts (merged ++ [(user, target)]) s' where
  comes row'' hrow'' := by
    rw [hrows] at hrow''
    obtain ⟨row', hrow', rfl⟩ := List.mem_map.mp hrow''
    obtain ⟨row, hrow, hgone, hsame⟩ := h.comes row' hrow'
    exact ⟨row, hrow, hgone, same_relink hsame (s.formed row' hrow') hsource htarget⟩
  kept row hrow hmodel hgone := by
    obtain ⟨row', hrow', hsame⟩ := h.kept row hrow hmodel hgone
    refine ⟨_, ?_, same_relink hsame (s.formed row' hrow') hsource htarget⟩
    rw [hrows]
    exact List.mem_map.mpr ⟨row', hrow', rfl⟩
  nir row'' hrow'' hmodel hnir := by
    rw [hrows] at hrow''
    obtain ⟨row', hrow', rfl⟩ := List.mem_map.mp hrow''
    have hkey : (relinkDiagnosis user target (relinkApplication user target row')).key = row'.key := by
      rw [relinkDiagnosis_key, relinkApplication_key]
    have hpk : (relinkDiagnosis user target (relinkApplication user target row')).pk = row'.pk := congrArg Prod.snd hkey
    rw [columns_relinkDiagnosis, columns_relinkApplication] at hnir ⊢
    rw [hpk]
    obtain ⟨row, hrow, hprofile, heq, howner⟩ := h.nir row' hrow' ((congrArg Prod.fst hkey).symm.trans hmodel) hnir
    exact ⟨row, hrow, hprofile, heq, howner.imp id fun hmem => List.mem_append_left _ hmem⟩

/-! ## What the deletion of an account reaches -/

theorem user_of_collected (h : schema.Collected s.rows [(.user, user)] (.user, pk)) : pk = user := by
  rcases Schema.collected_iff.mp h with hroot | ⟨row, hrow, hkey, ⟨r, pk'⟩, hlink, honDelete, -⟩
  · cases List.mem_singleton.mp hroot
    rfl
  · have hmodel : r.foreignKey.model = row.model := (s.formed row hrow).2 _ hlink
    exact absurd (hmodel.trans (congrArg Prod.fst hkey)) (Archive.not_cascade_to_user r honDelete)

theorem collected_of_link (hrow' : row' ∈ s.rows) (hsame : Same merged row row') (hformed : schema.Formed row)
    (hmodel : row.model ≠ .eligibilityDiagnosis) (hfk : row.fk r = some pk) (honDelete : r.foreignKey.onDelete = .cascade)
    (h : schema.Collected s.rows [(.user, user)] (r.foreignKey.target, pk)) :
    schema.Collected s.rows [(.user, user)] row'.key := by
  have hr : r ≠ .eligibilityDiagnosisJobSeeker := by
    rintro rfl
    exact hmodel (model_of_fk hformed hfk).symm
  have hfk' : row'.fk r = some pk := (hsame.cascade honDelete hr).trans hfk
  have hlink : (r, pk) ∈ row'.links := (Schema.fk_eq_some_iff (s.formed row' hrow')).mp hfk'
  exact .cascade hrow' hlink honDelete h

section Deletion

variable (h : After db accounts merged s) (hdiagnosis : ∀ row ∈ s.rows, row.fk .eligibilityDiagnosisJobSeeker ≠ some user)

include h hdiagnosis

theorem gone_of_collected (hk : schema.Collected s.rows [(.user, user)] k) : Gone db (accounts ++ [user]) k := by
  induction hk with
  | root hk =>
      obtain rfl := List.mem_singleton.mp hk
      exact gone_of_mem (List.mem_append_right _ List.mem_cons_self)
  | @cascade row' link hrow' hlink honDelete hcollected ih =>
      obtain ⟨r, pk⟩ := link
      have hfk : row'.fk r = some pk := (Schema.fk_eq_some_iff (s.formed row' hrow')).mpr hlink
      -- The account has no diagnosis any more, and a diagnosis is reached through its job seeker only.
      have hr : r ≠ .eligibilityDiagnosisJobSeeker := by
        rintro rfl
        obtain rfl := user_of_collected hcollected
        exact hdiagnosis row' hrow' hfk
      obtain ⟨row, hrow, -, hsame⟩ := h.comes row' hrow'
      have hmodel : row.model ≠ .eligibilityDiagnosis := fun heq =>
        hr (jobSeeker_of_cascade_diagnosis r honDelete ((model_of_fk (s.formed row' hrow') hfk).trans
          (hsame.model_eq.trans heq)))
      rw [hsame.key]
      exact gone_of_link hrow hmodel ((hsame.cascade honDelete hr).symm.trans hfk) honDelete ih

omit hdiagnosis in
/-- What goes with the account has gone before, or is reached, certifications apart. -/
theorem collected_of_gone (hk : Gone db (accounts ++ [user]) k) :
    k.1 = .identityCertification ∨ Gone db accounts k ∨ schema.Collected s.rows [(.user, user)] k := by
  induction hk with
  | root hk =>
      obtain ⟨pk, hpk, rfl⟩ := List.mem_map.mp hk
      rcases List.mem_append.mp hpk with hpk | hpk
      · exact .inr (.inl (gone_of_mem hpk))
      · obtain rfl := List.mem_singleton.mp hpk
        exact .inr (.inr (.root List.mem_cons_self))
  | @cascade row link hrow hlink honDelete _ ih =>
      obtain ⟨r, pk⟩ := link
      obtain ⟨hrow, hmodel⟩ := List.mem_filter.mp hrow
      have hmodel : row.model ≠ .eligibilityDiagnosis := of_decide_eq_true hmodel
      have hfk : row.fk r = some pk := (Schema.fk_eq_some_iff (db.formed row hrow)).mpr hlink
      by_cases hcertification : row.model = .identityCertification
      · exact .inl hcertification
      by_cases hgone : Gone db accounts row.key
      · exact .inr (.inl hgone)
      rcases ih with htarget | hlinked | hlinked
      · exact absurd htarget (target_ne_certification r)
      · exact .inr (.inl (gone_of_link hrow hmodel hfk honDelete hlinked))
      · obtain ⟨row', hrow', hsame⟩ := h.kept row hrow hcertification hgone
        rw [← hsame.key]
        exact .inr (.inr (collected_of_link hrow' hsame (db.formed row hrow) hmodel hfk honDelete hlinked))

/-- A row that is left by the merges before goes with the account exactly when its deletion reaches it. -/
theorem collected_iff_gone (hrow' : row' ∈ s.rows) :
    row'.key ∈ s.collected [(.user, user)] ↔ Gone db (accounts ++ [user]) row'.key := by
  rw [Database.mem_collected]
  refine ⟨gone_of_collected h hdiagnosis, fun hgone => ?_⟩
  obtain ⟨row, hrow, hleft, hsame⟩ := h.comes row' hrow'
  rcases gone_cases hgone with ⟨pk, hpk, hkey⟩ | ⟨row₁, hrow₁, hkey, hmodel, r, pk, hfk, honDelete, hlinked⟩
  · rw [hkey]
    rcases List.mem_append.mp hpk with hpk | hpk
    · exact absurd (gone_of_mem hpk) (hkey ▸ hsame.key ▸ hleft)
    · obtain rfl := List.mem_singleton.mp hpk
      exact .root List.mem_cons_self
  · obtain rfl := Database.eq_of_key_eq hrow hrow₁ (hkey.trans hsame.key)
    rcases collected_of_gone h hlinked with htarget | hlinked | hlinked
    · exact absurd htarget (target_ne_certification r)
    · exact absurd (gone_of_link hrow hmodel hfk honDelete hlinked) hleft
    · exact collected_of_link hrow' hsame (db.formed row₁ hrow) hmodel hfk honDelete hlinked

omit h hdiagnosis in
theorem same_release (hsame : Same merged row row') (hformed : schema.Formed row') :
    Same merged row (schema.release keys row') where
  key := hsame.key
  jobSeeker r hr := by
    rw [← hsame.jobSeeker r hr]
    refine Schema.fk_release_of_ne hformed ?_
    revert r
    decide
  fk r hnull hr hnot := (Schema.fk_release_of_ne hformed hnull).trans (hsame.fk r hnull hr hnot)
  columns := hsame.columns

theorem After.delete (hdelete : s.delete [(.user, user)] = .ok s') : After db (accounts ++ [user]) merged s' where
  comes row'' hrow'' := by
    rw [Database.rows_of_delete hdelete] at hrow''
    obtain ⟨row', hrow', hkey, rfl⟩ := Schema.mem_survivors.mp hrow''
    obtain ⟨row, hrow, -, hsame⟩ := h.comes row' hrow'
    refine ⟨row, hrow, fun hgone => hkey ?_, same_release hsame (s.formed row' hrow')⟩
    rw [collected_iff_gone h hdiagnosis hrow', hsame.key]
    exact hgone
  kept row hrow hmodel hgone := by
    obtain ⟨row', hrow', hsame⟩ :=
      h.kept row hrow hmodel fun hbefore => hgone (gone_mono hbefore fun pk hpk => List.mem_append_left _ hpk)
    refine ⟨schema.release (s.collected [(.user, user)]) row', ?_, same_release hsame (s.formed row' hrow')⟩
    rw [Database.rows_of_delete hdelete]
    refine Schema.mem_survivors.mpr ⟨row', hrow', fun hkey => hgone ?_, rfl⟩
    rw [← hsame.key]
    exact (collected_iff_gone h hdiagnosis hrow').mp hkey
  nir row'' hrow'' hmodel hnir := by
    rw [Database.rows_of_delete hdelete] at hrow''
    obtain ⟨row', hrow', -, rfl⟩ := Schema.mem_survivors.mp hrow''
    exact h.nir row' hrow' hmodel hnir

theorem unblocked_of_delete (hdelete : s.delete [(.user, user)] = .ok s') : Unblocked db (accounts ++ [user]) user := by
  intro row hrow r honDelete htarget hfk
  by_contra hleft
  obtain ⟨hnot, hgone⟩ := not_or.mp hleft
  have hmodel : r.foreignKey.model = row.model := model_of_fk (db.formed row hrow) hfk
  obtain ⟨row', hrow', hsame⟩ := h.kept row hrow (hmodel ▸ restrict_ne_certification r honDelete)
    fun hbefore => hgone (gone_mono hbefore fun pk hpk => List.mem_append_left _ hpk)
  have hdiagnosisRelation : r ≠ .eligibilityDiagnosisJobSeeker := by
    rintro rfl
    cases honDelete
  have hfk' : row'.fk r = some user := (hsame.fk r (by rw [honDelete]; decide) hdiagnosisRelation hnot).trans hfk
  obtain ⟨-, hrestricted, -⟩ := Database.delete_succeeds_iff.mp ⟨s', hdelete⟩
  refine hrestricted ⟨row', hrow', fun hcollected => ?_, ?_⟩
  · rw [collected_iff_gone h hdiagnosis hrow', hsame.key] at hcollected
    exact hgone hcollected
  · refine (Schema.refersTo_iff (s.formed row' hrow')).mpr ⟨r, user, hfk', honDelete, Database.mem_collected.mpr ?_⟩
    exact .root (List.mem_singleton.mpr (congrArg (·, user) htarget))

end Deletion

/-- What a diagnosis that is reached refers to. -/
theorem exists_jobSeeker_of_collected {jobSeeker : Relation} {model : Model} (hmodel : model ≠ .user)
    (honly : ∀ r : Relation, r.foreignKey.onDelete = .cascade → r.foreignKey.model = model → r = jobSeeker)
    (htarget : jobSeeker.foreignKey.target = .user) (h : schema.Collected s.rows [(.user, user)] (model, pk)) :
    ∃ row ∈ s.rows, row.fk jobSeeker = some user := by
  rcases Schema.collected_iff.mp h with hroot | ⟨row, hrow, hkey, ⟨r, pk'⟩, hlink, honDelete, hlinked⟩
  · exact absurd (congrArg Prod.fst (List.mem_singleton.mp hroot)) hmodel
  · have hfk : row.fk r = some pk' := (Schema.fk_eq_some_iff (s.formed row hrow)).mpr hlink
    obtain rfl := honly r honDelete ((model_of_fk (s.formed row hrow) hfk).trans (congrArg Prod.fst hkey))
    have hreferred : schema.referred (r, pk') = (.user, pk') := congrArg (·, pk') htarget
    rw [hreferred] at hlinked
    exact ⟨row, hrow, user_of_collected hlinked ▸ hfk⟩

theorem isReached_of_collected (h : schema.Collected s.rows [(.user, user)] k) : Archive.isReached k.1 = true := by
  refine Schema.Collected.model (P := fun model => Archive.isReached model = true) ?_ s.formed
    Archive.isReached_of_cascade h
  intro k hk
  rw [List.mem_singleton.mp hk]
  rfl

/-- A sender of its own applications is their job seeker. -/
theorem jobSeeker_of_sender (hrow : row ∈ s.rows) (hrelinked : IsRelinked row r) (hfk : row.fk r = some user) :
    row.fk .jobApplicationJobSeeker = some user := by
  rcases hrelinked with rfl | ⟨rfl, hkind⟩
  · exact hfk
  · have hmodel : row.model = .jobApplication := (model_of_fk (s.formed row hrow) hfk).symm
    have hcheck : schema.check row = true := s.accepted.1 row hrow
    simp [schema, hmodel, checkSender, hkind, hfk] at hcheck
    exact hcheck.symm

theorem delete_succeeds (h : After db accounts merged s)
    (hdiagnosis : ∀ row ∈ s.rows, row.fk .eligibilityDiagnosisJobSeeker ≠ some user)
    (happlication : ∀ row ∈ s.rows, row.fk .jobApplicationJobSeeker ≠ some user)
    (happroval : ∀ row ∈ db.rows, row.fk .approvalUser ≠ some user)
    (hgeiq : ∀ row ∈ db.rows, row.fk .geiqEligibilityDiagnosisJobSeeker ≠ some user)
    (hunblocked : Unblocked db (accounts ++ [user]) user) : ∃ s', s.delete [(.user, user)] = .ok s' := by
  refine Database.delete_succeeds_iff.mpr ⟨?_, ?_, accepts_survivors s _⟩
  · rintro ⟨row', hrow', hrefers⟩
    obtain ⟨r, pk, hfk, honDelete, hcollected⟩ := (Schema.refersTo_iff (s.formed row' hrow')).mp hrefers
    obtain rfl := approvalUser_of_protect r honDelete
    obtain rfl := user_of_collected (Database.mem_collected.mp hcollected)
    obtain ⟨row, hrow, -, hsame⟩ := h.comes row' hrow'
    refine happroval row hrow ((hsame.fk _ (by decide) (by decide) ?_).symm.trans hfk)
    rintro (hr | ⟨hr, -⟩) <;> cases hr
  · rintro ⟨row', hrow', hleft, hrefers⟩
    obtain ⟨r, pk, hfk, honDelete, hcollected⟩ := (Schema.refersTo_iff (s.formed row' hrow')).mp hrefers
    have hcollected := Database.mem_collected.mp hcollected
    have hcascade : r.foreignKey.onDelete ≠ .cascade := by
      rw [show r.foreignKey.onDelete = .restrict from honDelete]
      decide
    obtain ⟨row, hrow, -, hsame⟩ := h.comes row' hrow'
    rcases Archive.target_of_isReached r hcascade (isReached_of_collected hcollected) with
      htarget | ⟨-, fields, hfields, rfl⟩
    · -- The row refers to the account itself.
      rw [show schema.referred (r, pk) = (.user, pk) from congrArg (·, pk) htarget] at hcollected
      obtain rfl := user_of_collected hcollected
      by_cases hrelinked : IsRelinked row' r
      · exact happlication row' hrow' (jobSeeker_of_sender hrow' hrelinked hfk)
      · have hmodel : row.model ≠ .jobSeekerProfile := by
          rw [← hsame.model_eq, ← model_of_fk (s.formed row' hrow') hfk]
          exact restrict_ne_profile r honDelete
        have hnot : ¬ IsRelinked row r := fun hrel => hrelinked ((hsame.isRelinked_iff hmodel).mpr hrel)
        have hdiagnosisRelation : r ≠ .eligibilityDiagnosisJobSeeker := by
          rintro rfl
          exact hcascade rfl
        have hfkRow : row.fk r = some pk :=
          (hsame.fk r (by rw [show r.foreignKey.onDelete = .restrict from honDelete]; decide) hdiagnosisRelation
            hnot).symm.trans hfk
        refine hleft ((collected_iff_gone h hdiagnosis hrow').mpr ?_)
        rw [hsame.key]
        exact (hunblocked row hrow r honDelete htarget hfkRow).resolve_left hnot
    · -- The row refers to a diagnosis of the account.
      simp only [Archive.diagnosisRelations, List.mem_cons, List.not_mem_nil, or_false] at hfields
      rcases hfields with rfl | rfl | rfl
      · obtain ⟨diagnosis, hrow, hjobSeeker⟩ :=
          exists_jobSeeker_of_collected (by decide) jobSeeker_of_cascade_diagnosis rfl hcollected
        exact hdiagnosis diagnosis hrow hjobSeeker
      · obtain ⟨diagnosis, hrow, hjobSeeker⟩ :=
          exists_jobSeeker_of_collected (by decide) jobSeeker_of_cascade_diagnosis rfl hcollected
        exact hdiagnosis diagnosis hrow hjobSeeker
      · obtain ⟨diagnosis', hrow', hjobSeeker⟩ :=
          exists_jobSeeker_of_collected (by decide) jobSeeker_of_cascade_geiqDiagnosis rfl hcollected
        obtain ⟨diagnosis, hrow, -, hsame⟩ := h.comes diagnosis' hrow'
        exact hgeiq diagnosis hrow ((hsame.cascade rfl (by decide)).symm.trans hjobSeeker)

/-! ## One merge -/

/-- The database after these merges. -/
abbrev Merged (db : Database) (merged : List (Nat × Nat)) (s : Database) : Prop :=
  After db (merged.map Prod.fst) merged s

theorem map_fst_concat (merged : List (Nat × Nat)) (user target : Nat) :
    (merged ++ [(user, target)]).map Prod.fst = merged.map Prod.fst ++ [user] := by
  rw [List.map_append]
  rfl

/-- The account can be merged into the target after these merges. -/
structure IsMergeable (merged : List (Nat × Nat)) (user target : Nat) : Prop where
  ne : user ≠ target
  source : user ∉ merged.map Prod.fst
  target : user ∉ merged.map Prod.snd

theorem Merged.mergeInto (h : Merged db merged s) (hmergeable : IsMergeable merged user target)
    (hok : mergeInto target s user = .ok s') : Merged db (merged ++ [(user, target)]) s' ∧
      Unblocked db ((merged ++ [(user, target)]).map Prod.fst) user := by
  obtain ⟨s₁, hrows, heq⟩ := mergeInto_eq s user target
  have hrelinked := After.relink h hmergeable.source hmergeable.target hrows
  have hdiagnosis : ∀ row ∈ s₁.rows, row.fk .eligibilityDiagnosisJobSeeker ≠ some user := by
    intro row' hrow'
    rw [hrows] at hrow'
    obtain ⟨row, hrow, rfl⟩ := List.mem_map.mp hrow'
    exact fk_relink_ne hmergeable.ne (s.formed row hrow) (by decide)
  rw [Merged, map_fst_concat]
  exact ⟨hrelinked.delete hdiagnosis (heq ▸ hok), unblocked_of_delete hrelinked hdiagnosis (heq ▸ hok)⟩

theorem mergeInto_succeeds (h : Merged db merged s) (hmergeable : IsMergeable merged user target)
    (happroval : ∀ row ∈ db.rows, row.fk .approvalUser ≠ some user)
    (hgeiq : ∀ row ∈ db.rows, row.fk .geiqEligibilityDiagnosisJobSeeker ≠ some user)
    (hunblocked : Unblocked db ((merged ++ [(user, target)]).map Prod.fst) user) :
    ∃ s', mergeInto target s user = .ok s' := by
  obtain ⟨s₁, hrows, heq⟩ := mergeInto_eq s user target
  have hrelinked := After.relink h hmergeable.source hmergeable.target hrows
  have hfk : ∀ row ∈ s₁.rows, ∀ r ∈ [Relation.jobApplicationJobSeeker, .eligibilityDiagnosisJobSeeker],
      row.fk r ≠ some user := by
    intro row' hrow' r hr
    rw [hrows] at hrow'
    obtain ⟨row, hrow, rfl⟩ := List.mem_map.mp hrow'
    exact fk_relink_ne hmergeable.ne (s.formed row hrow) hr
  rw [map_fst_concat] at hunblocked
  rw [heq]
  exact delete_succeeds hrelinked (fun row hrow => hfk row hrow _ (by decide)) (fun row hrow => hfk row hrow _ (by decide))
    happroval hgeiq hunblocked

/-! ## The NIR of the target -/

theorem HasNir.mergeInto {nir : String} (hnir : HasNir s pk nir) (hne : pk ≠ user)
    (hok : mergeInto target s user = .ok s') : HasNir s' pk nir := by
  obtain ⟨row, hrow, hkey, hcolumns⟩ := hnir
  obtain ⟨s₁, hrows, heq⟩ := mergeInto_eq s user target
  have hmodel : row.model = .jobSeekerProfile := congrArg Prod.fst hkey
  have hrow₁ : row ∈ s₁.rows := by
    rw [hrows]
    refine List.mem_map.mpr ⟨row, hrow, ?_⟩
    rw [relinkApplication_of_ne _ _ _ (by rw [hmodel]; decide), relinkDiagnosis_of_ne _ _ _ (by rw [hmodel]; decide)]
  rw [heq] at hok
  refine ⟨schema.release (s₁.collected [(.user, user)]) row, ?_, hkey, hcolumns⟩
  rw [Database.rows_of_delete hok]
  refine Schema.mem_survivors.mpr ⟨row, hrow₁, fun hcollected => hne ?_, rfl⟩
  -- A profile is reached through its user only.
  rcases Schema.collected_iff.mp (Database.mem_collected.mp hcollected) with
    hroot | ⟨row', hrow', hkey', ⟨r, pk'⟩, hlink, honDelete, hlinked⟩
  · cases hkey.symm.trans (List.mem_singleton.mp hroot)
  · obtain rfl := Database.eq_of_key_eq hrow₁ hrow' hkey'
    have hfk : row'.fk r = some pk' := (Schema.fk_eq_some_iff (s₁.formed row' hrow')).mpr hlink
    obtain rfl := user_of_cascade_profile r honDelete ((model_of_fk (s₁.formed row' hrow') hfk).trans hmodel)
    rw [fk_profile hrow' hmodel] at hfk
    cases hfk
    exact (congrArg Prod.snd hkey).symm.trans (user_of_collected hlinked)

section SaveNir

variable {account : Account} {nir : String}

theorem not_refersTo_certifications {action : OnDelete} (h : ∀ k ∈ keys, k.1 = .identityCertification) (row : Row) :
    ¬ schema.RefersTo action keys row := by
  rintro ⟨link, -, -, hkey⟩
  exact target_ne_certification link.1 (h _ hkey)

/-- The save of a NIR deletes certifications, and saves the profile. -/
theorem saveNir_eq (s : Database) (account : Account) (nir : String) : ∃ s' : Database,
    (∀ row, row ∈ s'.rows ↔ row ∈ s.rows ∧ row.key ∉ certifications s account.pk) ∧
    saveNir account nir s = s'.save (.jobSeekerProfile, account.pk)
      fun _ => { account.profile with nir := nir, lackOfNirReason := "" } := by
  have hroots : ∀ k ∈ certifications s account.pk, k.1 = .identityCertification := by
    intro k hk
    obtain ⟨row, hrow, rfl⟩ := List.mem_map.mp hk
    obtain ⟨hrow, hfk⟩ := List.mem_filter.mp hrow
    simp only [Bool.and_eq_true, decide_eq_true_eq] at hfk
    exact (model_of_fk (s.formed row hrow) hfk.1).symm
  have hcollected : ∀ k ∈ s.collected (certifications s account.pk), k.1 = .identityCertification :=
    fun k hk => Schema.Collected.model (P := fun model => model = Model.identityCertification) hroots s.formed
      (fun r _ htarget => (target_ne_certification r htarget).elim)
      (Database.mem_collected.mp hk)
  have hclosed : ∀ row ∈ s.rows, row.key ∈ s.collected (certifications s account.pk) ↔
      row.key ∈ certifications s account.pk := by
    intro row _
    rw [Database.mem_collected]
    refine ⟨fun h => ?_, .root⟩
    rcases Schema.collected_iff.mp h with hroot | ⟨_, _, _, link, _, _, hlinked⟩
    · exact hroot
    · exact absurd (hcollected _ (Database.mem_collected.mpr hlinked)) (target_ne_certification link.1)
  have hdelete : ∃ s', s.delete (certifications s account.pk) = .ok s' := by
    refine Database.delete_succeeds_iff.mpr ⟨?_, ?_, accepts_survivors s (s.collected (certifications s account.pk))⟩
    · rintro ⟨row, _, hprotect⟩
      exact not_refersTo_certifications hcollected row hprotect
    · rintro ⟨row, _, _, hrestrict⟩
      exact not_refersTo_certifications hcollected row hrestrict
  obtain ⟨s', hs'⟩ := hdelete
  refine ⟨s', fun row => ?_, ?_⟩
  · rw [Database.rows_of_delete hs', Schema.mem_survivors]
    constructor
    · rintro ⟨row, hrow, hkey, rfl⟩
      rw [Schema.release_eq (not_refersTo_certifications hcollected row)]
      exact ⟨hrow, fun hmem => hkey ((hclosed row hrow).mpr hmem)⟩
    · rintro ⟨hrow, hkey⟩
      exact ⟨row, hrow, fun hmem => hkey ((hclosed row hrow).mp hmem),
        Schema.release_eq (not_refersTo_certifications hcollected row)⟩
  · rw [saveNir, hs']
    rfl

/-- The profile of the account has the NIR, and the other rows that are left are unchanged. -/
theorem mem_rows_of_saveNir (hok : saveNir account nir s = .ok s') (hrow' : row' ∈ s'.rows) :
    ∃ row ∈ s.rows, row'.key = row.key ∧ row'.links = row.links ∧
      row'.columns = if row.key = (.jobSeekerProfile, account.pk) then
        { account.profile with nir := nir, lackOfNirReason := "" } else row.columns := by
  obtain ⟨s₁, hrows, heq⟩ := saveNir_eq s account nir
  rw [heq] at hok
  rw [Database.rows_of_save hok] at hrow'
  obtain ⟨row, hrow, rfl⟩ := List.mem_map.mp hrow'
  refine ⟨row, ((hrows row).mp hrow).1, Row.modify_key _ _ row, ?_, ?_⟩
  · unfold Row.modify
    split <;> rfl
  · unfold Row.modify
    split <;> rfl

theorem exists_mem_of_saveNir (hok : saveNir account nir s = .ok s') (hrow : row ∈ s.rows)
    (hmodel : row.model ≠ .identityCertification) : ∃ row' ∈ s'.rows, row'.key = row.key := by
  obtain ⟨s₁, hrows, heq⟩ := saveNir_eq s account nir
  rw [heq] at hok
  refine Database.save_keeps hok ((hrows row).mpr ⟨hrow, fun hmem => hmodel ?_⟩)
  obtain ⟨certification, hcertification, hkey⟩ := List.mem_map.mp hmem
  obtain ⟨hcertification, hfk⟩ := List.mem_filter.mp hcertification
  simp only [Bool.and_eq_true, decide_eq_true_eq] at hfk
  rw [show row.model = certification.model from congrArg Prod.fst hkey.symm]
  exact (model_of_fk (s.formed certification hcertification) hfk.1).symm

theorem same_of_saveNir (hok : saveNir account nir s = .ok s') (hrow : row ∈ s.rows) (hrow' : row' ∈ s'.rows)
    (hkey : row'.key = row.key) : row'.links = row.links ∧
      row'.columns = if row.key = (.jobSeekerProfile, account.pk) then
        { account.profile with nir := nir, lackOfNirReason := "" } else row.columns := by
  obtain ⟨row₁, hrow₁, hkey₁, hlinks, hcolumns⟩ := mem_rows_of_saveNir hok hrow'
  obtain rfl := Database.eq_of_key_eq hrow hrow₁ (hkey₁.symm.trans hkey)
  exact ⟨hlinks, hcolumns⟩

theorem After.saveNir (h : After db accounts merged s) (hok : saveNir account nir s = .ok s')
    (hnir : ∀ row ∈ db.rows, row.key = (.jobSeekerProfile, account.pk) → row.columns.nir = "")
    (howner : ∃ row ∈ db.rows, row.model = .jobSeekerProfile ∧ row.columns.nir = nir ∧ (row.pk, account.pk) ∈ merged) :
    After db accounts merged s' := by
  have hsame : ∀ row ∈ db.rows, ∀ row₁ ∈ s.rows, ∀ row' ∈ s'.rows, Same merged row row₁ → row'.key = row₁.key →
      Same merged row row' := by
    intro row hrow row₁ hrow₁ row' hrow' hsame hkey
    obtain ⟨hlinks, hcolumns⟩ := same_of_saveNir hok hrow₁ hrow' hkey
    have hfk (r : Relation) : row'.fk r = row₁.fk r := congrArg (·.lookup r) hlinks
    refine ⟨hkey.trans hsame.key, fun r hr => (hfk r).trans (hsame.jobSeeker r hr),
      fun r hnull hr hnot => (hfk r).trans (hsame.fk r hnull hr hnot), fun hrowColumns => ?_⟩
    rw [hcolumns, hsame.key, hsame.columns hrowColumns, if_neg]
    intro hprofile
    rcases hrowColumns with hmodel | hnirColumns
    · exact hmodel (congrArg Prod.fst hprofile)
    · exact hnirColumns (hnir row hrow hprofile)
  constructor
  · intro row' hrow'
    obtain ⟨row₁, hrow₁, hkey, -⟩ := mem_rows_of_saveNir hok hrow'
    obtain ⟨row, hrow, hgone, hrowSame⟩ := h.comes row₁ hrow₁
    exact ⟨row, hrow, hgone, hsame row hrow row₁ hrow₁ row' hrow' hrowSame hkey⟩
  · intro row hrow hmodel hgone
    obtain ⟨row₁, hrow₁, hrowSame⟩ := h.kept row hrow hmodel hgone
    obtain ⟨row', hrow', hkey⟩ := exists_mem_of_saveNir hok hrow₁ (hrowSame.model_eq ▸ hmodel)
    exact ⟨row', hrow', hsame row hrow row₁ hrow₁ row' hrow' hrowSame hkey⟩
  · intro row' hrow' hmodel hne
    obtain ⟨row₁, hrow₁, hkey, -, hcolumns⟩ := mem_rows_of_saveNir hok hrow'
    have hpk : row'.pk = row₁.pk := congrArg Prod.snd hkey
    by_cases hprofile : row₁.key = (.jobSeekerProfile, account.pk)
    · rw [if_pos hprofile] at hcolumns
      obtain ⟨row, hrow, hrowModel, hrowNir, hmem⟩ := howner
      refine ⟨row, hrow, hrowModel, hrowNir.trans (congrArg Columns.nir hcolumns).symm, .inr ?_⟩
      rw [hpk, show row₁.pk = account.pk from congrArg Prod.snd hprofile]
      exact hmem
    · rw [if_neg hprofile] at hcolumns
      rw [hcolumns] at hne ⊢
      rw [hpk]
      exact h.nir row₁ hrow₁ ((congrArg Prod.fst hkey).symm.trans hmodel) hne

theorem hasNir_of_saveNir (hok : saveNir account nir s = .ok s')
    (hrow : row ∈ s.rows) (hkey : row.key = (.jobSeekerProfile, account.pk)) : HasNir s' account.pk nir := by
  obtain ⟨row', hrow', hkey'⟩ :=
    exists_mem_of_saveNir hok hrow (by rw [show row.model = .jobSeekerProfile from congrArg Prod.fst hkey]; decide)
  refine ⟨row', hrow', hkey'.trans hkey, ?_⟩
  rw [(same_of_saveNir hok hrow hrow' hkey').2, if_pos hkey]

theorem HasNir.saveNir {other : String} (hnir : HasNir s pk other) (hne : pk ≠ account.pk)
    (hok : saveNir account nir s = .ok s') : HasNir s' pk other := by
  obtain ⟨row, hrow, hkey, hcolumns⟩ := hnir
  obtain ⟨row', hrow', hkey'⟩ :=
    exists_mem_of_saveNir hok hrow (by rw [show row.model = .jobSeekerProfile from congrArg Prod.fst hkey]; decide)
  refine ⟨row', hrow', hkey'.trans hkey, ?_⟩
  rw [(same_of_saveNir hok hrow hrow' hkey').2, if_neg, hcolumns]
  intro hprofile
  exact hne (congrArg Prod.snd (hkey.symm.trans hprofile))

/-- A NIR that no other profile has can be saved. -/
theorem saveNir_succeeds (hunique : ∀ row ∈ s.rows, row.model = .jobSeekerProfile → row.columns.nir = nir →
    row.key = (.jobSeekerProfile, account.pk)) : ∃ s', saveNir account nir s = .ok s' := by
  obtain ⟨s₁, hrows, heq⟩ := saveNir_eq s account nir
  have haccepts : schema.Accepts (s₁.rows.map (Row.modify (.jobSeekerProfile, account.pk)
      fun _ => { account.profile with nir := nir, lackOfNirReason := "" })) := by
    constructor
    · intro row' hrow'
      obtain ⟨row, hrow, rfl⟩ := List.mem_map.mp hrow'
      unfold Row.modify
      split
      next hkey =>
        have hmodel : row.model = .jobSeekerProfile := congrArg Prod.fst hkey
        have hfk : row.fk .jobSeekerProfileUser = some row.pk := fk_profile hrow hmodel
        exact check_profile hmodel rfl hfk
      next => exact s₁.accepted.1 row hrow
    · intro a' ha' b' hb' hne
      obtain ⟨a, ha, rfl⟩ := List.mem_map.mp ha'
      obtain ⟨b, hb, rfl⟩ := List.mem_map.mp hb'
      rw [Row.modify_key, Row.modify_key] at hne
      by_contra hconflict
      rw [Bool.not_eq_false, conflict_iff] at hconflict
      obtain ⟨hamodel, hbmodel, hnirs, hempty⟩ := hconflict
      by_cases hakey : a.key = (.jobSeekerProfile, account.pk)
      · have hbkey : b.key ≠ (.jobSeekerProfile, account.pk) := fun h => hne (hakey.trans h.symm)
        rw [Row.modify, if_pos hakey, Row.modify, if_neg hbkey] at hnirs
        rw [Row.modify, if_neg hbkey] at hbmodel
        exact hbkey (hunique b ((hrows b).mp hb).1 hbmodel hnirs.symm)
      · rw [Row.modify, if_neg hakey] at hnirs hamodel hempty
        by_cases hbkey : b.key = (.jobSeekerProfile, account.pk)
        · rw [Row.modify, if_pos hbkey] at hnirs
          exact hakey (hunique a ((hrows a).mp ha).1 hamodel hnirs)
        · rw [Row.modify, if_neg hbkey] at hnirs hbmodel
          have haccepted := s₁.accepted.2 a ha b hb hne
          rw [Bool.eq_false_iff] at haccepted
          exact haccepted (conflict_iff.mpr ⟨hamodel, hbmodel, hnirs, hempty⟩)
  rw [heq]
  exact ⟨_, dif_pos haccepts⟩

end SaveNir

end Itou.DeduplicateJobSeekers
