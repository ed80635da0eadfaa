import Itou.Companies.Lemmas.Transfer
import Itou.Lib.Outcomes
import Mathlib.Data.List.Induction

/-!
# A list of fields

What a whole list of fields gives: it is refused, it fails, or it leaves the database after all its fields.

An application names jobs of the company that received it. A transfer changes the company of the applications, that of the
job descriptions, or both.
-/

namespace Itou.Companies

open Itou.Lib Itou.Organizations

/-! ## Columns of the company -/

/-- The company with some columns of another one. -/
def Company.copied (fields : CompanyField → Bool) (fromCompany row : Company) : Company :=
  { row with
    brand := if fields .brand then fromCompany.brand else row.brand
    description := if fields .description then fromCompany.description else row.description
    isSearchable := if fields .isSearchable then fromCompany.isSearchable else row.isSearchable
    phone := if fields .phone then fromCompany.phone else row.phone }

/-- The columns that a list of fields copies. -/
def copies (done : List TransferField) (modelField : CompanyField) : Bool :=
  done.any fun field => field.modelField = some modelField

/-- Those that it changes. -/
def changes (fromCompany toCompany : Company) (done : List TransferField) (modelField : CompanyField) : Bool :=
  copies done modelField && modelField.copy fromCompany toCompany ≠ toCompany

section Copies

variable {fromCompany toCompany row : Company} {done : List TransferField} {field : TransferField}

theorem copies_concat (modelField : CompanyField) :
    copies (done ++ [field]) modelField = (copies done modelField || decide (field.modelField = some modelField)) := by
  simp [copies]

theorem copied_false : Company.copied (fun _ => false) fromCompany row = row := rfl

theorem copy_copied (fields : CompanyField → Bool) (modelField : CompanyField) :
    modelField.copy fromCompany (Company.copied fields fromCompany row) =
      Company.copied (fun f => fields f || decide (modelField = f)) fromCompany row := by
  cases modelField <;> simp [CompanyField.copy, Company.copied]

/-- The columns changed are saved in any order. -/
theorem foldl_copy (fields : List CompanyField) :
    fields.foldl (fun row field => field.copy fromCompany row) row =
      Company.copied (fun f => decide (f ∈ fields)) fromCompany row := by
  induction fields using List.reverseRecOn with
  | nil => simp [copied_false]
  | append_singleton fields field ih =>
      rw [List.foldl_append, ih, List.foldl_cons, List.foldl_nil, copy_copied]
      congr 1
      funext f
      simp [eq_comm]

theorem copy_ne_iff (fromCompany toCompany : Company) (fields : CompanyField → Bool) (modelField : CompanyField) :
    modelField.copy fromCompany (Company.copied fields fromCompany toCompany) ≠
        Company.copied fields fromCompany toCompany ↔
      fields modelField = false ∧ modelField.copy fromCompany toCompany ≠ toCompany := by
  cases toCompany with
  | mk =>
      cases modelField <;> cases h : fields _ <;> simp [CompanyField.copy, Company.copied, h]

end Copies

/-! ## Rounds -/

/-- What is known once the fields `done` are done. -/
structure Progress.IsAfter (db : Db) (fromCompany toCompany : Company) (now : Int) (done : List TransferField)
    (p : Progress) : Prop where
  db_eq : p.db = db.after fromCompany toCompany now done
  toCompany_eq : p.toCompany = Company.copied (copies done) fromCompany toCompany
  changed : ∀ f, f ∈ p.saveUpdateFields ↔ changes fromCompany toCompany done f = true
  evaluatedApart : .evaluatedSiaes ∈ done → db.EvaluatedApart fromCompany toCompany
  membersProfessional : .memberships ∈ done → db.MembersProfessional fromCompany

section Rounds

variable {db : Db} {fromCompany toCompany : Company} {now : Int} {done fields : List TransferField}
  {field : TransferField} {p : Progress}

theorem isBlocked_copied (f : CompanyField → Bool) :
    field.isBlocked (Company.copied f fromCompany toCompany) = field.isBlocked toCompany := rfl

theorem hasItems_copied (f : CompanyField → Bool) :
    db.hasItems fromCompany (Company.copied f fromCompany toCompany) field = db.hasItems fromCompany toCompany field := rfl

theorem transferItems_copied (f : CompanyField → Bool) :
    db.transferItems fromCompany (Company.copied f fromCompany toCompany) now field =
      db.transferItems fromCompany toCompany now field := rfl

theorem Related.move_of_ne {r : Related} (h : ¬ r.company = some fromCompany.pk) :
    r.move fromCompany.pk toCompany.pk = r := if_neg h

theorem filter_nil_of_any {α : Type} {l : List α} {p : α → Bool} (h : l.any p = false) : l.filter p = [] :=
  List.filter_eq_nil_iff.mpr fun a ha => Bool.not_eq_true _ ▸ List.any_eq_false.mp h a ha

theorem map_id_of_any {α : Type} {l : List α} {p : α → Bool} {f : α → α} (h : l.any p = false) :
    l.map (fun a => if p a then f a else a) = l := by
  refine (List.map_congr_left fun a ha => ?_).trans l.map_id
  rw [if_neg (List.any_eq_false.mp h a ha)]
  rfl

/-- Where the query finds no item, there is nothing to save. -/
theorem transferItems_of_not_hasItems (h : db.hasItems fromCompany toCompany field = false) :
    db.transferItems fromCompany toCompany now field = .ok db := by
  cases hmodel : field.relatedModel with
  | some model =>
      simp only [Db.hasItems, hmodel, Db.transferItems, Bool.and_eq_false_iff, Bool.not_eq_false'] at h ⊢
      split
      · rfl
      · rename_i hhides
        have hany := h.resolve_left hhides
        refine congrArg Except.ok (Db.ext rfl (funext fun model' => ?_) rfl rfl rfl rfl rfl rfl rfl rfl)
        dsimp only
        split
        · rename_i heq
          subst heq
          exact (List.map_congr_left fun r hr => Related.move_of_ne fun hcompany => by
            simpa [hcompany] using List.any_eq_false.mp hany r hr).trans (List.map_id _)
        · rfl
  | none =>
      cases field with
      | evaluatedSiaes =>
          simp only [Db.hasItems, hmodel, Db.transferItems] at h ⊢
          have hleft : (db.evaluatedSiaes.rows.filter fun r => EvaluatedSiae.bySiae.owner r = fromCompany.pk) = [] :=
            filter_nil_of_any h
          rw [Ownership.moveAll, hleft]
          rfl
      | geiqAssessments | jobSeekerAssignments =>
          simp only [Db.hasItems, hmodel, Db.transferItems] at h ⊢
          rw [filter_nil_of_any h]
          rfl
      | memberships =>
          simp only [Db.hasItems, hmodel, Db.transferItems] at h ⊢
          unfold Db.transferMemberships
          rw [filter_nil_of_any h]
          rfl
      | jobApplicationsSent | jobApplicationsReceived | jobApplicationsTransferred =>
          simp only [Db.hasItems, hmodel, Db.transferItems] at h ⊢
          refine congrArg Except.ok (Db.ext rfl rfl rfl rfl ?_ rfl rfl rfl rfl rfl)
          exact (List.map_congr_left fun a ha => if_neg (by simpa using List.any_eq_false.mp h a ha)).trans
            (List.map_id _)
      | invitations =>
          simp only [Db.hasItems, hmodel, Db.transferItems] at h ⊢
          exact congrArg Except.ok (Db.ext rfl rfl rfl rfl rfl rfl rfl rfl rfl (map_id_of_any h))
      | employeeRecordsCreated | brand | description | isSearchable | phone => rfl
      | iaeDiagCreated | geiqDiagCreated | jobDescriptions | prolongations | prolongationRequests | suspensions =>
          cases hmodel

/-- A round on the items of a field. -/
theorem transferField_eq (hfield : field.modelField = none) : p.transferField fromCompany now field =
    if field.isBlocked p.toCompany && p.db.hasItems fromCompany p.toCompany field then .error .transferError
    else (p.db.transferItems fromCompany p.toCompany now field).map fun db => { p with db := db } := by
  unfold Progress.transferField TransferField.isBlocked
  simp only [hfield]
  cases hitems : p.db.hasItems fromCompany p.toCompany field with
  | true =>
      cases field.iaeOnly <;> cases field.geiqOnly <;> cases p.toCompany.isSubjectToIaeRules <;>
        cases decide (p.toCompany.kind = CompanyKind.geiq) <;> rfl
  | false =>
      rw [transferItems_of_not_hasItems hitems]
      cases p with
      | mk => simp [Except.map]

theorem isRestricted_of_isBlocked (h : field.isBlocked toCompany = true) : field.isRestricted = true := by
  simp only [TransferField.isBlocked, TransferField.isRestricted, Bool.or_eq_true, Bool.and_eq_true] at h ⊢
  exact h.imp (·.1) (·.1)

theorem isAfter_nil : Progress.IsAfter db fromCompany toCompany now [] ⟨db, toCompany, []⟩ where
  db_eq := by
    refine Db.ext rfl (funext fun model => ?_) rfl rfl ?_ rfl rfl rfl rfl ?_
    · simp [Db.after]
    · exact ((List.map_congr_left fun a _ => by simp [JobApplication.move]).trans (List.map_id _)).symm
    · exact ((List.map_congr_left fun i _ => by simp).trans (List.map_id _)).symm
  toCompany_eq := rfl
  changed f := by simp [changes, copies]
  evaluatedApart h := nomatch h
  membersProfessional h := nomatch h

/-- A round on a column of the company. -/
theorem transferField_modelField (hne : fromCompany.pk ≠ toCompany.pk) {modelField : CompanyField}
    (hfield : field.modelField = some modelField)
    (hp : Progress.IsAfter db fromCompany toCompany now done p) :
    ∃ p', p.transferField fromCompany now field = .ok p' ∧
      Progress.IsAfter db fromCompany toCompany now (done ++ [field]) p' := by
  have hcopies : ∀ f, copies (done ++ [field]) f = (copies done f || decide (modelField = f)) := by
    intro f
    rw [copies_concat, hfield]
    simp
  have hcopied : modelField.copy fromCompany p.toCompany =
      Company.copied (copies (done ++ [field])) fromCompany toCompany := by
    rw [hp.toCompany_eq, copy_copied]
    congr 1
    exact funext fun f => (hcopies f).symm
  have hdb : db.after fromCompany toCompany now (done ++ [field]) = db.after fromCompany toCompany now done := by
    cases field <;> cases hfield <;> exact after_concat_none hne rfl (by decide)
  have hevaluated : .evaluatedSiaes ∈ done ++ [field] → db.EvaluatedApart fromCompany toCompany := by
    intro h
    rcases List.mem_append.mp h with h | h
    · exact hp.evaluatedApart h
    · rw [← List.mem_singleton.mp h] at hfield
      cases hfield
  have hmembers : .memberships ∈ done ++ [field] → db.MembersProfessional fromCompany := by
    intro h
    rcases List.mem_append.mp h with h | h
    · exact hp.membersProfessional h
    · rw [← List.mem_singleton.mp h] at hfield
      cases hfield
  have hne_iff := copy_ne_iff fromCompany toCompany (copies done) modelField
  rw [← hp.toCompany_eq] at hne_iff
  unfold Progress.transferField
  simp only [hfield]
  by_cases hchange : modelField.copy fromCompany p.toCompany ≠ p.toCompany
  · rw [if_pos hchange]
    refine ⟨_, rfl, ⟨hp.db_eq.trans hdb.symm, hcopied, fun f => ?_, hevaluated, hmembers⟩⟩
    obtain ⟨hnot, hvalue⟩ := hne_iff.mp hchange
    rw [List.mem_append, hp.changed f, List.mem_singleton]
    simp only [changes, hcopies, Bool.and_eq_true, decide_eq_true_eq, Bool.or_eq_true]
    constructor
    · rintro (⟨h, h'⟩ | rfl)
      · exact ⟨Or.inl h, h'⟩
      · exact ⟨Or.inr rfl, hvalue⟩
    · rintro ⟨h | rfl, h'⟩
      · exact Or.inl ⟨h, h'⟩
      · exact Or.inr rfl
  · rw [if_neg hchange]
    refine ⟨_, rfl, ⟨hp.db_eq.trans hdb.symm, ?_, fun f => ?_, hevaluated, hmembers⟩⟩
    · exact (not_ne_iff.mp hchange).symm.trans hcopied
    · rw [hp.changed f]
      simp only [changes, hcopies, Bool.and_eq_true, decide_eq_true_eq, Bool.or_eq_true]
      constructor
      · rintro ⟨h, h'⟩
        exact ⟨Or.inl h, h'⟩
      · rintro ⟨h | rfl, h'⟩
        · exact ⟨h, h'⟩
        · exact ⟨Bool.not_eq_false _ ▸ fun hnot => hchange (hne_iff.mpr ⟨hnot, h'⟩), h'⟩

/-- A round is refused, or it leads to the database after one more field. -/
theorem transferField_step (now : Int) (hne : fromCompany.pk ≠ toCompany.pk) (hcrash : ¬ db.Crashes fromCompany toCompany field)
    (hp : Progress.IsAfter db fromCompany toCompany now done p) :
    if field.isBlocked toCompany = true ∧
        (db.after fromCompany toCompany now done).hasItems fromCompany toCompany field = true then
      p.transferField fromCompany now field = .error .transferError
    else ∃ p', p.transferField fromCompany now field = .ok p' ∧
      Progress.IsAfter db fromCompany toCompany now (done ++ [field]) p' := by
  cases hfield : field.modelField with
  | some modelField =>
      have hopen : field.isBlocked toCompany = false := by cases field <;> cases hfield <;> rfl
      rw [if_neg (by rw [hopen]; exact fun h => nomatch h.1)]
      exact transferField_modelField hne hfield hp
  | none =>
      rw [transferField_eq hfield, hp.db_eq, hp.toCompany_eq, isBlocked_copied, hasItems_copied, transferItems_copied]
      split
      · rename_i h
        rw [if_pos (Bool.and_eq_true_iff.mpr h)]
      · rename_i h
        rw [if_neg fun h' => h (Bool.and_eq_true_iff.mp h')]
        have hevaluated : field = .evaluatedSiaes → db.EvaluatedApart fromCompany toCompany := by
          rintro rfl
          by_cases hdone : TransferField.evaluatedSiaes ∈ done
          · exact hp.evaluatedApart hdone
          · by_cases hiae : toCompany.isSubjectToIaeRules = true
            · by_contra hnot
              exact hcrash (Or.inr ⟨rfl, hiae, hnot⟩)
            · intro e he hsiae
              refine absurd ⟨?_, hasItems_after hdone rfl (fun h => nomatch h) ?_⟩ h
              · simp [TransferField.isBlocked, TransferField.iaeOnly, hiae]
              · exact List.any_eq_true.mpr ⟨e, he, decide_eq_true hsiae⟩
        have hmembers : field = .memberships → db.MembersProfessional fromCompany := by
          rintro rfl
          by_contra hnot
          exact hcrash (Or.inl ⟨rfl, hnot⟩)
        rw [transferItems_after hne hevaluated hmembers]
        refine ⟨_, rfl, ⟨rfl, ?_, fun f => ?_, fun hin => ?_, fun hin => ?_⟩⟩
        · change Company.copied (copies done) fromCompany toCompany = _
          congr 1
          funext f
          simp [copies_concat, hfield]
        · rw [hp.changed f]
          simp [changes, copies_concat, hfield]
        · rcases List.mem_append.mp hin with hin | hin
          · exact hp.evaluatedApart hin
          · exact hevaluated (List.mem_singleton.mp hin).symm
        · rcases List.mem_append.mp hin with hin | hin
          · exact hp.membersProfessional hin
          · exact hmembers (List.mem_singleton.mp hin).symm

/-- The items of a blocked field are not read, at whatever time it comes after `done`. -/
def Db.Free (db : Db) (fromCompany toCompany : Company) (done : List TransferField) (field : TransferField) : Prop :=
  field.isBlocked toCompany = true → db.hasItems fromCompany toCompany field = true →
    field = .employeeRecordsCreated ∧ .jobApplicationsReceived ∈ done

/-- A list without a refusal. -/
theorem foldlM_ok (hne : fromCompany.pk ≠ toCompany.pk) (hcrash : ∀ field ∈ fields, ¬ db.Crashes fromCompany toCompany field)
    (hfree : ∀ field ∈ fields, db.Free fromCompany toCompany done field)
    (hp : Progress.IsAfter db fromCompany toCompany now done p) :
    ∃ p', fields.foldlM (Progress.transferField fromCompany now) p = .ok p' ∧
      Progress.IsAfter db fromCompany toCompany now (done ++ fields) p' := by
  induction fields generalizing done p with
  | nil => exact ⟨p, rfl, by rwa [List.append_nil]⟩
  | cons field fields ih =>
      have hstep := transferField_step now hne (hcrash field List.mem_cons_self) hp
      rw [if_neg] at hstep
      · obtain ⟨next, hnext, hafter⟩ := hstep
        have hlater : ∀ f ∈ fields, db.Free fromCompany toCompany (done ++ [field]) f := by
          intro f hf hblocked hitems
          obtain ⟨hrecords, hdone⟩ := hfree f (List.mem_cons_of_mem field hf) hblocked hitems
          exact ⟨hrecords, List.mem_append_left _ hdone⟩
        obtain ⟨p', hp', hall⟩ := ih (fun f hf => hcrash f (List.mem_cons_of_mem field hf)) hlater hafter
        refine ⟨p', ?_, ?_⟩
        · rw [List.foldlM_cons, hnext]
          exact hp'
        · rwa [List.append_assoc] at hall
      · rintro ⟨hblocked, hitems⟩
        obtain ⟨hitems, hrecords⟩ := hasItems_of_after hne (isRestricted_of_isBlocked hblocked) hitems
        obtain ⟨hfield, hdone⟩ := hfree field List.mem_cons_self hblocked hitems
        exact hrecords hfield hdone

/-- A list with a refusal, whatever its place. -/
theorem foldlM_refused (hne : fromCompany.pk ≠ toCompany.pk)
    (hcrash : ∀ field ∈ fields, ¬ db.Crashes fromCompany toCompany field) (hfield : field ∈ fields) (hnot : field ∉ done)
    (hblocked : field.isBlocked toCompany = true) (hitems : db.hasItems fromCompany toCompany field = true)
    (hrecords : field = .employeeRecordsCreated → .jobApplicationsReceived ∉ done ++ fields)
    (hp : Progress.IsAfter db fromCompany toCompany now done p) :
    fields.foldlM (Progress.transferField fromCompany now) p = .error .transferError := by
  induction fields generalizing done p with
  | nil => cases hfield
  | cons next fields ih =>
      have hstep := transferField_step now hne (hcrash next List.mem_cons_self) hp
      rw [List.foldlM_cons]
      split at hstep
      · rw [hstep]
        rfl
      · rename_i hpassed
        obtain ⟨p', hp', hafter⟩ := hstep
        have hother : field ≠ next := by
          rintro rfl
          exact hpassed ⟨hblocked, hasItems_after hnot (isRestricted_of_isBlocked hblocked)
            (fun h hdone => hrecords h (List.mem_append_left _ hdone)) hitems⟩
        rw [hp']
        refine ih (fun f hf => hcrash f (List.mem_cons_of_mem next hf))
          ((List.mem_cons.mp hfield).resolve_left hother) ?_ ?_ hafter
        · simp [hnot, hother]
        · rwa [List.append_assoc]

/-- A list that begins with a failure. -/
theorem foldlM_crash (now : Int) (fields : List TransferField) (hne : fromCompany.pk ≠ toCompany.pk)
    (hcrash : db.Crashes fromCompany toCompany field) :
    ∃ e, (field :: fields).foldlM (Progress.transferField fromCompany now) ⟨db, toCompany, []⟩ = .error e ∧
      e ≠ .transferError := by
  rw [List.foldlM_cons]
  rcases hcrash with ⟨rfl, hmembers⟩ | ⟨rfl, hiae, hapart⟩
  · obtain ⟨e, he, hother⟩ := transferMemberships_error toCompany now hmembers
    refine ⟨e, ?_, hother⟩
    rw [transferField_eq rfl]
    simp [TransferField.isBlocked, TransferField.iaeOnly, TransferField.geiqOnly, Db.transferItems,
      TransferField.relatedModel, he, Except.map]
    rfl
  · refine ⟨.keyError, ?_, by decide⟩
    rw [transferField_eq rfl]
    simp [TransferField.isBlocked, TransferField.iaeOnly, TransferField.geiqOnly, Db.transferItems, hiae,
      TransferField.relatedModel, (moveAll_evaluatedSiaes hne).mpr hapart, Except.map]
    rfl

end Rounds

/-! ## The jobs of the applications -/

section Frame

variable {db db' : Db} {fromCompany toCompany : Company} {now : Int} {fields : List TransferField}
  {field : TransferField} {p p' : Progress}

/-! ### One field -/

/-- The company of each application, and its jobs. -/
def Db.links (db : Db) : List (Nat × List Nat) := db.jobApplications.map fun a => (a.toCompany, a.jobs)

/-- The company of what the first company had. -/
def moved (fromCompany toCompany company : Nat) : Nat := if company = fromCompany then toCompany else company

/-- What a list of fields does to the companies of the applications and of the jobs. -/
structure Frame (fromCompany toCompany : Company) (fields : List TransferField) (db db' : Db) : Prop where
  links : db'.links = db.links.map fun link =>
    (if .jobApplicationsReceived ∈ fields then moved fromCompany.pk toCompany.pk link.1 else link.1, link.2)
  jobs : ∀ job, db'.jobCompany job =
    if fromCompany.MovesJobs fields then (db.jobCompany job).map (moved fromCompany.pk toCompany.pk)
    else db.jobCompany job

theorem Frame.refl (fromCompany toCompany : Company) (db : Db) : Frame fromCompany toCompany [] db db where
  links := by simp
  jobs job := by simp [Company.MovesJobs]

theorem not_movesJobs (h : field ≠ .jobDescriptions) : ¬ fromCompany.MovesJobs [field] := fun hmoves =>
  h (List.mem_singleton.mp hmoves.1).symm

/-- A field that touches neither. -/
theorem Frame.of_eq (hreceived : field ≠ .jobApplicationsReceived) (hjobs : ¬ fromCompany.MovesJobs [field])
    (hlinks : db'.links = db.links)
    (hrelated : db'.related .jobDescription = db.related .jobDescription) :
    Frame fromCompany toCompany [field] db db' where
  links := by
    rw [hlinks]
    simp [hreceived.symm]
  jobs job := by rw [if_neg hjobs, Db.jobCompany, Db.jobCompany, hrelated]

theorem jobCompany_move (job : Nat) (rows : List Related) :
    (((rows.map (Related.move fromCompany.pk toCompany.pk)).find? fun r => r.pk = job).bind Related.company) =
      ((rows.find? fun r => r.pk = job).bind Related.company).map (moved fromCompany.pk toCompany.pk) := by
  have hpk : ∀ r : Related, (r.move fromCompany.pk toCompany.pk).pk = r.pk := by
    intro r
    unfold Related.move
    split <;> rfl
  rw [List.find?_map]
  have hpred : ((fun r : Related => decide (r.pk = job)) ∘ Related.move fromCompany.pk toCompany.pk) =
      fun r : Related => decide (r.pk = job) := by
    funext r
    simp [hpk]
  rw [hpred]
  cases hfind : rows.find? fun r => decide (r.pk = job) with
  | none => rfl
  | some r =>
      cases hcompany : r.company with
      | none => simp [Related.move, hcompany]
      | some company =>
          by_cases heq : company = fromCompany.pk <;> simp [Related.move, moved, hcompany, heq]

theorem frame_transferItems (h : db.transferItems fromCompany toCompany now field = .ok db') :
    Frame fromCompany toCompany [field] db db' := by
  have hmodel : ∀ model, field.relatedModel = some model → Frame fromCompany toCompany [field] db db' := by
    intro model hmodel
    simp only [Db.transferItems, hmodel] at h
    have hreceived : field ≠ .jobApplicationsReceived := by
      rintro rfl
      cases hmodel
    by_cases hhides : fromCompany.hides model = true
    · rw [if_pos hhides] at h
      cases h
      refine Frame.of_eq hreceived (fun hmoves => ?_) rfl rfl
      obtain rfl := List.mem_singleton.mp hmoves.1
      cases hmodel
      rw [hmoves.2] at hhides
      cases hhides
    · rw [if_neg hhides] at h
      cases h
      by_cases hjob : model = .jobDescription
      · subst hjob
        have hfield : field = .jobDescriptions := by
          cases field <;> first | rfl | cases hmodel
        refine ⟨by simp [Db.links, hreceived.symm], fun job => ?_⟩
        rw [if_pos ⟨List.mem_singleton.mpr hfield.symm, Bool.not_eq_true _ ▸ hhides⟩]
        simp only [Db.jobCompany, if_true]
        exact jobCompany_move job _
      · refine Frame.of_eq hreceived (fun hmoves => ?_) rfl (if_neg (Ne.symm hjob))
        obtain rfl := List.mem_singleton.mp hmoves.1
        cases hmodel
        exact hjob rfl
  cases field with
  | iaeDiagCreated | geiqDiagCreated | jobDescriptions | prolongations | prolongationRequests | suspensions =>
      exact hmodel _ rfl
  | jobApplicationsReceived =>
      cases h
      refine ⟨?_, fun job => by rw [if_neg (not_movesJobs (by decide))]; rfl⟩
      simp only [Db.links, List.map_map, List.mem_singleton, if_true]
      refine List.map_congr_left fun a _ => ?_
      simp only [Function.comp, moved]
      split <;> rfl
  | jobApplicationsSent | jobApplicationsTransferred =>
      cases h
      refine Frame.of_eq (by decide) (not_movesJobs (by decide)) ?_ rfl
      rw [Db.links, List.map_map]
      refine List.map_congr_left fun a _ => ?_
      simp only [Function.comp]
      split <;> rfl
  | evaluatedSiaes | geiqAssessments | jobSeekerAssignments =>
      simp only [Db.transferItems, TransferField.relatedModel] at h
      obtain ⟨rows, -, hrows⟩ := elim_error_eq_ok.mp h
      cases hrows
      exact Frame.of_eq (by decide) (not_movesJobs (by decide)) rfl rfl
  | memberships =>
      simp only [Db.transferItems, TransferField.relatedModel] at h
      obtain ⟨rows, -, rfl⟩ := map_eq_ok.mp h
      exact Frame.of_eq (by decide) (not_movesJobs (by decide)) rfl rfl
  | employeeRecordsCreated | invitations | brand | description | isSearchable | phone =>
      cases h
      exact Frame.of_eq (by decide) (not_movesJobs (by decide)) rfl rfl

theorem moved_moved (hne : fromCompany.pk ≠ toCompany.pk) (company : Nat) :
    moved fromCompany.pk toCompany.pk (moved fromCompany.pk toCompany.pk company) =
      moved fromCompany.pk toCompany.pk company := by
  unfold moved
  by_cases h : company = fromCompany.pk
  · rw [if_pos h, if_neg hne.symm]
  · rw [if_neg h, if_neg h]

theorem movesJobs_concat : fromCompany.MovesJobs (fields ++ [field]) ↔
    fromCompany.MovesJobs fields ∨ fromCompany.MovesJobs [field] := by
  simp only [Company.MovesJobs, List.mem_append, List.mem_singleton, or_and_right]

/-- What one more field does. -/
theorem Frame.concat {db'' : Db} (hne : fromCompany.pk ≠ toCompany.pk)
    (h : Frame fromCompany toCompany fields db db') (hfield : Frame fromCompany toCompany [field] db' db'') :
    Frame fromCompany toCompany (fields ++ [field]) db db'' where
  links := by
    rw [hfield.links, h.links, List.map_map]
    refine List.map_congr_left fun link _ => ?_
    simp only [Function.comp, List.mem_append, List.mem_singleton]
    by_cases hdone : TransferField.jobApplicationsReceived ∈ fields
    · rw [if_pos hdone, if_pos (Or.inl hdone), moved_moved hne, ite_self]
    · rw [if_neg hdone]
      simp only [hdone, false_or]
  jobs job := by
    have hcomp : moved fromCompany.pk toCompany.pk ∘ moved fromCompany.pk toCompany.pk =
        moved fromCompany.pk toCompany.pk := funext (moved_moved hne)
    rw [hfield.jobs, h.jobs]
    by_cases hdone : fromCompany.MovesJobs fields <;> by_cases hlast : fromCompany.MovesJobs [field] <;>
      simp [movesJobs_concat, hdone, hlast, hcomp]

/-! ### A transfer -/

theorem frame_transferField (h : p.transferField fromCompany now field = .ok p') :
    p'.toCompany.pk = p.toCompany.pk ∧ Frame fromCompany p.toCompany [field] p.db p'.db := by
  cases hmodel : field.modelField with
  | some modelField =>
      have hframe : Frame fromCompany p.toCompany [field] p.db p.db := by
        cases field <;> cases hmodel <;> exact Frame.of_eq (by decide) (not_movesJobs (by decide)) rfl rfl
      unfold Progress.transferField at h
      simp only [hmodel] at h
      split at h
      · cases h
        exact ⟨by cases modelField <;> rfl, hframe⟩
      · cases h
        exact ⟨rfl, hframe⟩
  | none =>
      rw [transferField_eq hmodel] at h
      split at h
      · cases h
      · obtain ⟨db, hitems, rfl⟩ := map_eq_ok.mp h
        exact ⟨rfl, frame_transferItems hitems⟩

theorem Frame.congr {toCompany' : Company} (hpk : toCompany'.pk = toCompany.pk)
    (h : Frame fromCompany toCompany' fields db db') : Frame fromCompany toCompany fields db db' :=
  ⟨hpk ▸ h.links, hpk ▸ h.jobs⟩

theorem frame_foldlM (hne : fromCompany.pk ≠ toCompany.pk)
    (h : fields.foldlM (Progress.transferField fromCompany now) ⟨db, toCompany, []⟩ = .ok p) :
    p.toCompany.pk = toCompany.pk ∧ Frame fromCompany toCompany fields db p.db := by
  induction fields using List.reverseRecOn generalizing p with
  | nil =>
      cases h
      exact ⟨rfl, Frame.refl fromCompany toCompany db⟩
  | append_singleton fields field ih =>
      rw [List.foldlM_append] at h
      obtain ⟨p₁, hfields, hfield⟩ := bind_eq_ok.mp h
      obtain ⟨hpk₁, hframe₁⟩ := ih hfields
      rw [List.foldlM_cons] at hfield
      obtain ⟨p₂, hfield, heq⟩ := bind_eq_ok.mp hfield
      cases heq
      obtain ⟨hpk, hframe⟩ := frame_transferField hfield
      exact ⟨hpk.trans hpk₁, hframe₁.concat hne (hframe.congr hpk₁)⟩

/-! ### Jobs that are cleared -/

theorem jobsOfCompany_iff : db.JobsOfCompany ↔ ∀ link ∈ db.links, ∀ job ∈ link.2, db.jobCompany job = some link.1 := by
  simp only [Db.JobsOfCompany, Db.links, List.forall_mem_map]

theorem jobs_eq_nil {a : JobApplication} : a.jobs = [] ↔ a.hiredJob = none ∧ a.selectedJobs = [] := by
  cases h : a.hiredJob <;> simp [JobApplication.jobs, h]

theorem jobCompany_unlinkJobs (job : Nat) : (db.unlinkJobs fromCompany fields).jobCompany job = db.jobCompany job := by
  unfold Db.unlinkJobs
  split <;> rfl

theorem isVisibleJob_eq {job : Nat} (hrow : (db.companies.find? fun c => c.pk = fromCompany.pk) = some fromCompany)
    (hjob : db.jobCompany job = some fromCompany.pk) :
    db.isVisibleJob job = !fromCompany.hides .jobDescription := by
  rw [Db.isVisibleJob, hjob, Option.any_some, hrow, Option.any_some]
  rfl

/-- The applications once the jobs selected are cleared. -/
theorem jobApplications_unlinkJobs (hrow : (db.companies.find? fun c => c.pk = fromCompany.pk) = some fromCompany)
    (h : db.JobsOfCompany) (fields : List TransferField) : (db.unlinkJobs fromCompany fields).jobApplications =
      db.jobApplications.map fun a =>
        if a.toCompany = fromCompany.pk ∧ fromCompany.ClearsJobs fields then { a with selectedJobs := [] } else a := by
  have hvisible : ∀ a ∈ db.jobApplications, a.toCompany = fromCompany.pk → ∀ job ∈ a.selectedJobs,
      db.isVisibleJob job = !fromCompany.hides .jobDescription := by
    intro a ha hcompany job hjob
    exact isVisibleJob_eq hrow (hcompany ▸ h a ha job (List.mem_append_right _ hjob))
  unfold Db.unlinkJobs
  split
  · rename_i hfields
    refine List.map_congr_left fun a ha => ?_
    by_cases hcompany : a.toCompany = fromCompany.pk
    · cases hhides : fromCompany.hides .jobDescription with
      | true =>
          rw [if_pos hcompany, if_neg (fun hclears => by rw [hclears.2.2.2] at hhides; cases hhides)]
          have hkeep : (a.selectedJobs.filter fun job => !db.isVisibleJob job) = a.selectedJobs :=
            List.filter_eq_self.mpr fun job hjob => by rw [hvisible a ha hcompany job hjob, hhides]; rfl
          rw [hkeep]
      | false =>
          rw [if_pos hcompany, if_pos ⟨hcompany, hfields.1, hfields.2, hhides⟩]
          have hclear : (a.selectedJobs.filter fun job => !db.isVisibleJob job) = [] :=
            List.filter_eq_nil_iff.mpr fun job hjob => by rw [hvisible a ha hcompany job hjob, hhides]; decide
          rw [hclear]
    · rw [if_neg hcompany, if_neg (fun hclears => hcompany hclears.1)]
  · rename_i hfields
    refine ((List.map_congr_left fun a _ => if_neg fun hclears => ?_).trans (List.map_id _)).symm
    exact hfields ⟨hclears.2.1, hclears.2.2.1⟩

theorem moved_eq_self (hne : fromCompany.pk ≠ toCompany.pk) {company : Nat} :
    moved fromCompany.pk toCompany.pk company = company ↔ company ≠ fromCompany.pk := by
  unfold moved
  split
  · rename_i h
    exact ⟨fun heq => absurd (heq.trans h).symm hne, fun hnot => absurd h hnot⟩
  · rename_i h
    exact ⟨fun _ => h, fun _ => rfl⟩

theorem forall_jobs_iff {l : List JobApplication} {company : Nat} :
    (∀ a ∈ l, ∀ job ∈ a.jobs, a.toCompany ≠ company) ↔ ∀ a ∈ l, a.toCompany = company → a.jobs = [] := by
  refine forall₂_congr fun a _ => ?_
  constructor
  · intro h hcompany
    exact List.eq_nil_iff_forall_not_mem.mpr fun job hjob => h job hjob hcompany
  · intro h job hjob hcompany
    rw [h hcompany] at hjob
    cases hjob

/-- The jobs follow exactly when no application of the company still names a job where only one of both goes. -/
theorem jobsOfCompany_after (hne : fromCompany.pk ≠ toCompany.pk) (h : db.JobsOfCompany)
    (hframe : Frame fromCompany toCompany fields db db') : db'.JobsOfCompany ↔
      (.jobApplicationsReceived ∈ fields ↔ fromCompany.MovesJobs fields) ∨
        ∀ a ∈ db.jobApplications, a.toCompany = fromCompany.pk → a.jobs = [] := by
  have hstep : db'.JobsOfCompany ↔ ∀ a ∈ db.jobApplications, ∀ job ∈ a.jobs,
      (if fromCompany.MovesJobs fields then moved fromCompany.pk toCompany.pk a.toCompany else a.toCompany) =
        if .jobApplicationsReceived ∈ fields then moved fromCompany.pk toCompany.pk a.toCompany else a.toCompany := by
    rw [jobsOfCompany_iff, hframe.links]
    simp only [Db.links, List.forall_mem_map, hframe.jobs]
    refine forall₂_congr fun a ha => forall₂_congr fun job hjob => ?_
    rw [h a ha job hjob]
    split <;> simp
  rw [hstep]
  by_cases hmoves : fromCompany.MovesJobs fields <;> by_cases hreceived : .jobApplicationsReceived ∈ fields
  · simp [hmoves, hreceived]
  · simp only [hmoves, hreceived, if_true, if_false, iff_true, false_or, moved_eq_self hne]
    exact forall_jobs_iff
  · simp only [hmoves, hreceived, if_true, if_false, iff_false, not_true, false_or]
    rw [← forall_jobs_iff]
    exact forall₂_congr fun a _ => forall₂_congr fun job _ => eq_comm.trans (moved_eq_self hne)
  · simp [hmoves, hreceived]

end Frame

end Itou.Companies
