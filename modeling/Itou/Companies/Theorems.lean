import Itou.Companies.Lemmas.Activity
import Itou.Companies.Lemmas.Assignments
import Itou.Companies.Lemmas.CleanUp
import Itou.Companies.Lemmas.Lists
import Itou.Companies.Lemmas.SyncFtOffers

/-!
# The order of the fields

When the order of the fields to transfer does not matter, and what a merge of assignments loses.
-/

namespace Itou.Companies

open Itou.Lib Itou.Organizations

variable (db : Db) (fromCompany toCompany : Company)

/-- The transfer is refused for the sources of the companies. -/
def Forbidden (allowAspToUserCreatedTransfer : Bool) : Prop :=
  (!allowAspToUserCreatedTransfer && fromCompany.source = .asp && toCompany.source = .userCreated) = true

/-- The other company cannot receive the items of this field. The employee records go with the applications received,
and are not found once these have gone. -/
def Db.Refuses (fields : List TransferField) (field : TransferField) : Prop :=
  field.isBlocked toCompany = true ∧ db.hasItems fromCompany toCompany field = true ∧
    (field = .employeeRecordsCreated → .jobApplicationsReceived ∉ fields)

/-- Both kinds of fields are listed, and some employee records cannot go to the other company. -/
def Db.RecordsAstray (fields : List TransferField) : Prop :=
  .employeeRecordsCreated ∈ fields ∧ .jobApplicationsReceived ∈ fields ∧
    TransferField.employeeRecordsCreated.isBlocked toCompany = true ∧
    db.hasItems fromCompany toCompany .employeeRecordsCreated = true

/-- Both kinds of fields are listed, and an invitation to be moved is to a member to be moved. -/
def Db.MembersInvited (fields : List TransferField) : Prop :=
  .memberships ∈ fields ∧ .invitations ∈ fields ∧
    ∃ i ∈ db.invitations, db.transfersInvitation fromCompany toCompany i = true ∧
      notIn (db.memberEmails fromCompany.pk) i.email = false

/-- The order of the fields is indifferent. -/
def Db.Commutes (fields : List TransferField) (allowAspToUserCreatedTransfer : Bool) : Prop :=
  Forbidden fromCompany toCompany allowAspToUserCreatedTransfer ∨
    ((∀ field ∈ fields, ¬ db.Crashes fromCompany toCompany field) ∧
      ((∃ field ∈ fields, db.Refuses fromCompany toCompany fields field) ∨
        (¬ db.RecordsAstray fromCompany toCompany fields ∧ ¬ db.MembersInvited fromCompany toCompany fields)))

/-- No employee record of an application that the company received ends under the other company outside the IAE. -/
def Db.KeepsRecords (result : Except TransferException Db) : Prop :=
  ∀ db', result = .ok db' → ∀ r ∈ db.employeeRecords, ∀ a ∈ db.jobApplications,
    a.pk = r.jobApplication → a.toCompany = fromCompany.pk →
      ∀ a' ∈ db'.jobApplications, a'.pk = a.pk → a'.toCompany = toCompany.pk → toCompany.isSubjectToIaeRules = true

/-- Two lists of the same fields are both refused, or lead to one database. -/
def OrderIndependent (now : Int) (fields : List TransferField) (disableFromCompany allowAspToUserCreatedTransfer : Bool) :
    Prop :=
  ∀ fields₁ fields₂ : List TransferField, fields₁.Perm fields → fields₂.Perm fields →
    let result₁ := db.transferCompanyData fromCompany now toCompany fields₁ disableFromCompany
      allowAspToUserCreatedTransfer
    let result₂ := db.transferCompanyData fromCompany now toCompany fields₂ disableFromCompany
      allowAspToUserCreatedTransfer
    ((result₁ = .error .transferError ∧ result₂ = .error .transferError) ∨ ∃ db', result₁ = .ok db' ∧ result₂ = .ok db') ∧
      (.jobApplicationsReceived ∈ fields → .employeeRecordsCreated ∈ fields →
        db.KeepsRecords fromCompany toCompany result₁)

section Proof

variable {db fromCompany toCompany} {now : Int} {fields fields' : List TransferField} {field : TransferField}

/-! ## The jobs selected -/

theorem unlinkJobs_perm (h : fields.Perm fields') : db.unlinkJobs fromCompany fields = db.unlinkJobs fromCompany fields' := by
  unfold Db.unlinkJobs
  simp only [h.mem_iff]

theorem crashes_unlinkJobs :
    (db.unlinkJobs fromCompany fields).Crashes fromCompany toCompany field ↔ db.Crashes fromCompany toCompany field := by
  unfold Db.unlinkJobs
  split <;> exact Iff.rfl

theorem transfersInvitation_unlinkJobs : (db.unlinkJobs fromCompany fields).transfersInvitation fromCompany toCompany =
    db.transfersInvitation fromCompany toCompany := by
  unfold Db.unlinkJobs
  split <;> rfl

theorem hasItems_unlinkJobs (hfield : field.isRestricted = true) :
    (db.unlinkJobs fromCompany fields).hasItems fromCompany toCompany field =
      db.hasItems fromCompany toCompany field := by
  unfold Db.unlinkJobs
  split
  · cases field with
    | employeeRecordsCreated =>
        simp only [Db.hasItems, TransferField.relatedModel, List.any_map]
        congr 1
        funext r
        congr 1
        funext a
        simp only [Function.comp]
        split <;> rfl
    | _ => first | rfl | cases hfield
  · rfl

/-! ## Two lists -/

/-- The final database of two lists of the same fields. -/
theorem after_perm (hne : fromCompany.pk ≠ toCompany.pk) (h : fields.Perm fields')
    (hinvited : ¬ db.MembersInvited fromCompany toCompany fields) :
    db.after fromCompany toCompany now fields = db.after fromCompany toCompany now fields' := by
  refine Db.ext rfl (funext fun model => ?_) ?_ ?_ ?_ rfl ?_ rfl ?_ ?_
  · simp only [Db.after, h.mem_iff]
  · simp only [Db.after, h.mem_iff]
  · simp only [Db.after, h.mem_iff]
  · exact List.map_congr_left fun a _ => by simp only [JobApplication.move, h.mem_iff]
  · simp only [Db.after, h.mem_iff]
  · simp only [Db.after, h.mem_iff]
  · simp only [Db.after, h.mem_iff]
    refine List.map_congr_left fun i hi => ?_
    by_cases hin : TransferField.invitations ∈ fields'
    · have hread : ∀ list : List TransferField, list.Perm fields →
          (db.readByInvitations fromCompany toCompany now list).transfersInvitation fromCompany toCompany i =
            db.transfersInvitation fromCompany toCompany i := by
        intro list hlist
        unfold Db.readByInvitations
        split
        · rename_i hmembers
          rw [Bool.eq_iff_iff, transfersInvitation_moved hne]
          refine ⟨(·.1), fun htransfer => ⟨htransfer, ?_⟩⟩
          by_contra hnot
          exact hinvited ⟨hlist.mem_iff.mp hmembers.1, h.mem_iff.mpr hin, i, hi, htransfer, Bool.not_eq_true _ ▸ hnot⟩
        · rfl
      rw [hread fields (List.Perm.refl fields), hread fields' h.symm]
    · simp [hin]

theorem copies_perm (h : fields.Perm fields') : copies fields = copies fields' := by
  funext modelField
  unfold copies
  exact h.any_eq

/-- What is saved of the company does not depend on the order either. -/
theorem save_perm (hne : fromCompany.pk ≠ toCompany.pk) (h : fields.Perm fields')
    (hinvited : ¬ db.MembersInvited fromCompany toCompany fields) {p p' : Progress}
    (hp : Progress.IsAfter db fromCompany toCompany now fields p)
    (hp' : Progress.IsAfter db fromCompany toCompany now fields' p') : p.save = p'.save := by
  have hcompany : p.toCompany = p'.toCompany := by rw [hp.toCompany_eq, hp'.toCompany_eq, copies_perm h]
  have hchanged : (fun f => decide (f ∈ p.saveUpdateFields)) = fun f => decide (f ∈ p'.saveUpdateFields) := by
    funext f
    rw [decide_eq_decide, hp.changed, hp'.changed]
    unfold changes
    rw [copies_perm h]
  unfold Progress.save
  simp only [foldl_copy, hchanged, hcompany, hp.db_eq, hp'.db_eq, after_perm hne h hinvited]

variable {disableFromCompany allowAspToUserCreatedTransfer : Bool}

/-- The transfer, once its list of fields is done. -/
def Progress.finish (p : Progress) (fromCompany : Company) (now : Int) (disableFromCompany : Bool) : Db :=
  if disableFromCompany then p.save.disableCompany fromCompany now else p.save

theorem transfer_forbidden (h : Forbidden fromCompany toCompany allowAspToUserCreatedTransfer) :
    db.transferCompanyData fromCompany now toCompany fields disableFromCompany allowAspToUserCreatedTransfer =
      .error .transferError := if_pos h

theorem transfer_ok (disableFromCompany : Bool)
    (h : ¬ Forbidden fromCompany toCompany allowAspToUserCreatedTransfer) {p : Progress}
    (hfold : fields.foldlM (Progress.transferField fromCompany now)
      ⟨db.unlinkJobs fromCompany fields, toCompany, []⟩ = .ok p) :
    db.transferCompanyData fromCompany now toCompany fields disableFromCompany allowAspToUserCreatedTransfer =
      .ok (p.finish fromCompany now disableFromCompany) :=
  (if_neg h).trans (congrArg (Except.map _) hfold)

theorem transfer_error (disableFromCompany : Bool)
    (h : ¬ Forbidden fromCompany toCompany allowAspToUserCreatedTransfer) {e : TransferException}
    (hfold : fields.foldlM (Progress.transferField fromCompany now)
      ⟨db.unlinkJobs fromCompany fields, toCompany, []⟩ = .error e) :
    db.transferCompanyData fromCompany now toCompany fields disableFromCompany allowAspToUserCreatedTransfer =
      .error e :=
  (if_neg h).trans (congrArg (Except.map _) hfold)

/-- A list with a field that the other company cannot receive is refused in any order. -/
theorem transfer_refused (hne : fromCompany.pk ≠ toCompany.pk) (hperm : fields'.Perm fields)
    (hcrash : ∀ field ∈ fields, ¬ db.Crashes fromCompany toCompany field)
    (hrefuses : ∃ field ∈ fields, db.Refuses fromCompany toCompany fields field) :
    db.transferCompanyData fromCompany now toCompany fields' disableFromCompany allowAspToUserCreatedTransfer =
      .error .transferError := by
  by_cases hforbidden : Forbidden fromCompany toCompany allowAspToUserCreatedTransfer
  · exact transfer_forbidden hforbidden
  · obtain ⟨field, hfield, hblocked, hitems, hrecords⟩ := hrefuses
    have hrestricted := isRestricted_of_isBlocked hblocked
    refine transfer_error disableFromCompany hforbidden (foldlM_refused hne ?_
      (hperm.mem_iff.mpr hfield) List.not_mem_nil hblocked ?_ ?_ isAfter_nil)
    · intro f hf h
      exact hcrash f (hperm.mem_iff.mp hf) (crashes_unlinkJobs.mp h)
    · rw [hasItems_unlinkJobs hrestricted]
      exact hitems
    · intro h hreceived
      exact hrecords h (hperm.mem_iff.mp hreceived)

/-- A list with no field that the other company cannot receive, and no employee record astray. -/
theorem foldlM_of_not_refuses (now : Int) (hne : fromCompany.pk ≠ toCompany.pk) (hperm : fields'.Perm fields)
    (hcrash : ∀ field ∈ fields, ¬ db.Crashes fromCompany toCompany field)
    (hrefuses : ¬ ∃ field ∈ fields, db.Refuses fromCompany toCompany fields field)
    (hastray : ¬ db.RecordsAstray fromCompany toCompany fields) :
    ∃ p, fields'.foldlM (Progress.transferField fromCompany now)
        ⟨db.unlinkJobs fromCompany fields', toCompany, []⟩ = .ok p ∧
      Progress.IsAfter (db.unlinkJobs fromCompany fields) fromCompany toCompany now fields' p := by
  have hfree : ∀ f ∈ fields', (db.unlinkJobs fromCompany fields).Free fromCompany toCompany [] f := by
    intro f hf hblocked hitems
    rw [hasItems_unlinkJobs (isRestricted_of_isBlocked hblocked)] at hitems
    have hmem := hperm.mem_iff.mp hf
    by_cases hrecords : f = .employeeRecordsCreated ∧ .jobApplicationsReceived ∈ fields
    · obtain ⟨rfl, hreceived⟩ := hrecords
      exact absurd ⟨hmem, hreceived, hblocked, hitems⟩ hastray
    · exact absurd ⟨f, hmem, hblocked, hitems, fun h hreceived => hrecords ⟨h, hreceived⟩⟩ hrefuses
  rw [unlinkJobs_perm hperm]
  exact foldlM_ok hne (fun f hf h => hcrash f (hperm.mem_iff.mp hf) (crashes_unlinkJobs.mp h)) hfree isAfter_nil

/-- A list that is not refused, done in two orders. -/
theorem transfer_perm (hne : fromCompany.pk ≠ toCompany.pk)
    (hforbidden : ¬ Forbidden fromCompany toCompany allowAspToUserCreatedTransfer)
    (hcrash : ∀ field ∈ fields, ¬ db.Crashes fromCompany toCompany field)
    (hrefuses : ¬ ∃ field ∈ fields, db.Refuses fromCompany toCompany fields field)
    (hastray : ¬ db.RecordsAstray fromCompany toCompany fields)
    (hinvited : ¬ db.MembersInvited fromCompany toCompany fields)
    {fields₁ fields₂ : List TransferField} (h₁ : fields₁.Perm fields) (h₂ : fields₂.Perm fields) :
    ∃ db', db.transferCompanyData fromCompany now toCompany fields₁ disableFromCompany
        allowAspToUserCreatedTransfer = .ok db' ∧
      db.transferCompanyData fromCompany now toCompany fields₂ disableFromCompany
        allowAspToUserCreatedTransfer = .ok db' := by
  obtain ⟨p₁, hp₁, hafter₁⟩ := foldlM_of_not_refuses now hne h₁ hcrash hrefuses hastray
  obtain ⟨p₂, hp₂, hafter₂⟩ := foldlM_of_not_refuses now hne h₂ hcrash hrefuses hastray
  have hinvited₁ : ¬ (db.unlinkJobs fromCompany fields).MembersInvited fromCompany toCompany fields₁ := by
    rintro ⟨hmembers, hinvitations, i, hi, htransfer, hmember⟩
    rw [transfersInvitation_unlinkJobs] at htransfer
    refine hinvited ⟨h₁.mem_iff.mp hmembers, h₁.mem_iff.mp hinvitations, i, ?_, htransfer, ?_⟩
    · unfold Db.unlinkJobs at hi
      split at hi <;> exact hi
    · unfold Db.unlinkJobs at hmember
      split at hmember <;> exact hmember
  have hsave := save_perm hne (h₁.trans h₂.symm) hinvited₁ hafter₁ hafter₂
  refine ⟨_, transfer_ok disableFromCompany hforbidden hp₁, ?_⟩
  rw [transfer_ok disableFromCompany hforbidden hp₂]
  unfold Progress.finish
  rw [hsave]

/-- Where the employee records may follow, or there is none, they stay in the IAE. -/
theorem keepsRecords (hastray : ¬ db.RecordsAstray fromCompany toCompany fields)
    (hreceived : .jobApplicationsReceived ∈ fields) (hrecords : .employeeRecordsCreated ∈ fields)
    (result : Except TransferException Db) : db.KeepsRecords fromCompany toCompany result := by
  rintro db' - r hr a ha hpk hcompany - - - -
  by_contra hoiae
  refine hastray ⟨hrecords, hreceived, ?_, ?_⟩
  · simp only [TransferField.isBlocked, TransferField.iaeOnly, Bool.not_eq_true _ ▸ hoiae]
    rfl
  · simp only [Db.hasItems, TransferField.relatedModel, List.any_eq_true, Bool.and_eq_true, decide_eq_true_eq]
    exact ⟨r, hr, a, ha, hpk, hcompany⟩

/-! ## Orders that differ -/

theorem perm_cons_erase (h : field ∈ fields) : (field :: fields.erase field).Perm fields :=
  (List.perm_cons_erase h).symm

theorem crashes_of_orderIndependent (hne : fromCompany.pk ≠ toCompany.pk)
    (hforbidden : ¬ Forbidden fromCompany toCompany allowAspToUserCreatedTransfer)
    (h : OrderIndependent db fromCompany toCompany now fields disableFromCompany allowAspToUserCreatedTransfer) :
    ∀ field ∈ fields, ¬ db.Crashes fromCompany toCompany field := by
  intro field hfield hcrash
  have hperm := perm_cons_erase hfield
  obtain ⟨e, he, hother⟩ := foldlM_crash now (fields.erase field) hne
    (crashes_unlinkJobs.mpr hcrash)
  have hresult := transfer_error disableFromCompany hforbidden he
  obtain ⟨⟨hrefused, -⟩ | ⟨db', hok, -⟩, -⟩ := h _ _ hperm hperm
  · rw [hresult, Except.error.injEq] at hrefused
    exact hother hrefused
  · rw [hresult] at hok
    cases hok

/-- The employee records are refused before the applications received, and accepted after. -/
theorem not_orderIndependent_of_recordsAstray (hne : fromCompany.pk ≠ toCompany.pk)
    (hforbidden : ¬ Forbidden fromCompany toCompany allowAspToUserCreatedTransfer)
    (hcrash : ∀ field ∈ fields, ¬ db.Crashes fromCompany toCompany field)
    (hrefuses : ¬ ∃ field ∈ fields, db.Refuses fromCompany toCompany fields field)
    (hastray : db.RecordsAstray fromCompany toCompany fields) :
    ¬ OrderIndependent db fromCompany toCompany now fields disableFromCompany allowAspToUserCreatedTransfer := by
  intro h
  obtain ⟨hrecords, hreceived, hblocked, hitems⟩ := hastray
  have hperm₁ := perm_cons_erase hrecords
  have hperm₂ := perm_cons_erase hreceived
  have hcrash₁ : ∀ f ∈ fields, ¬ (db.unlinkJobs fromCompany fields).Crashes fromCompany toCompany f :=
    fun f hf hc => hcrash f hf (crashes_unlinkJobs.mp hc)
  have hfirst₁ := transferField_step now hne (hcrash₁ _ hrecords) isAfter_nil
  rw [if_pos ⟨hblocked, hasItems_after List.not_mem_nil rfl (fun _ => List.not_mem_nil)
    ((hasItems_unlinkJobs rfl).trans hitems)⟩] at hfirst₁
  have hresult₁ : db.transferCompanyData fromCompany now toCompany (.employeeRecordsCreated :: fields.erase .employeeRecordsCreated)
      disableFromCompany allowAspToUserCreatedTransfer = .error .transferError := by
    refine transfer_error disableFromCompany hforbidden ?_
    rw [unlinkJobs_perm hperm₁, List.foldlM_cons, hfirst₁]
    rfl
  have hfirst₂ := transferField_step now hne (hcrash₁ _ hreceived) isAfter_nil
  rw [if_neg (fun hc => nomatch hc.1)] at hfirst₂
  obtain ⟨p, hp, hafter⟩ := hfirst₂
  have hfree : ∀ f ∈ fields.erase .jobApplicationsReceived,
      (db.unlinkJobs fromCompany fields).Free fromCompany toCompany ([] ++ [.jobApplicationsReceived]) f := by
    intro f hf hblocked hitems
    rw [hasItems_unlinkJobs (isRestricted_of_isBlocked hblocked)] at hitems
    refine ⟨?_, List.mem_singleton_self _⟩
    by_contra hother
    exact hrefuses ⟨f, List.mem_of_mem_erase hf, hblocked, hitems, fun heq => absurd heq hother⟩
  obtain ⟨p', hp', -⟩ := foldlM_ok hne (fun f hf => hcrash₁ f (List.mem_of_mem_erase hf)) hfree hafter
  have hresult₂ := transfer_ok disableFromCompany hforbidden (p := p') (by
      rw [unlinkJobs_perm hperm₂, List.foldlM_cons, hp]
      exact hp')
  obtain ⟨⟨-, hrefused⟩ | ⟨db', hok, -⟩, -⟩ := h _ _ hperm₁ hperm₂
  · rw [hresult₂] at hrefused
    cases hrefused
  · rw [hresult₁] at hok
    cases hok

theorem invitations_finish {p : Progress} :
    (p.finish fromCompany now disableFromCompany).invitations = p.db.invitations := by
  unfold Progress.finish
  split <;> rfl

/-- An invitation to a member who is moved goes with the others, or stays behind. -/
theorem not_orderIndependent_of_membersInvited (hne : fromCompany.pk ≠ toCompany.pk)
    (hforbidden : ¬ Forbidden fromCompany toCompany allowAspToUserCreatedTransfer)
    (hcrash : ∀ field ∈ fields, ¬ db.Crashes fromCompany toCompany field)
    (hrefuses : ¬ ∃ field ∈ fields, db.Refuses fromCompany toCompany fields field)
    (hastray : ¬ db.RecordsAstray fromCompany toCompany fields)
    (hinvited : db.MembersInvited fromCompany toCompany fields) :
    ¬ OrderIndependent db fromCompany toCompany now fields disableFromCompany allowAspToUserCreatedTransfer := by
  intro h
  obtain ⟨hmembers, hinvitations, i, hi, htransfer, hmember⟩ := hinvited
  have hin : .invitations ∈ fields.erase .memberships := (List.mem_erase_of_ne (by decide)).mpr hinvitations
  have hperm₁ : (.memberships :: .invitations :: (fields.erase .memberships).erase .invitations).Perm fields :=
    ((perm_cons_erase hin).cons _).trans (perm_cons_erase hmembers)
  have hperm₂ := (List.Perm.swap .memberships .invitations
    ((fields.erase .memberships).erase .invitations)).trans hperm₁
  obtain ⟨p₁, hp₁, hafter₁⟩ := foldlM_of_not_refuses now hne hperm₁ hcrash hrefuses hastray
  obtain ⟨p₂, hp₂, hafter₂⟩ := foldlM_of_not_refuses now hne hperm₂ hcrash hrefuses hastray
  obtain ⟨⟨hrefused, -⟩ | ⟨db', hok₁, hok₂⟩, -⟩ := h _ _ hperm₁ hperm₂
  · rw [transfer_ok disableFromCompany hforbidden hp₁] at hrefused
    cases hrefused
  · rw [transfer_ok disableFromCompany hforbidden hp₁] at hok₁
    rw [transfer_ok disableFromCompany hforbidden hp₂, ← hok₁, Except.ok.injEq] at hok₂
    have hsame := congrArg Db.invitations hok₂
    rw [invitations_finish, invitations_finish, hafter₁.db_eq, hafter₂.db_eq] at hsame
    have hi' : i ∈ (db.unlinkJobs fromCompany fields).invitations := by
      unfold Db.unlinkJobs
      split <;> exact hi
    have hpoint := List.map_inj_left.mp hsame i hi'
    have hread₁ : ((db.unlinkJobs fromCompany fields).readByInvitations fromCompany toCompany now
        (.memberships :: .invitations :: (fields.erase .memberships).erase .invitations)).transfersInvitation
          fromCompany toCompany i = false := by
      rw [Db.readByInvitations, if_pos ⟨List.mem_cons_self, by simp [invitationsFirst]⟩, ← Bool.not_eq_true,
        transfersInvitation_moved hne]
      rintro ⟨-, hnot⟩
      have hsame : notIn ((db.unlinkJobs fromCompany fields).memberEmails fromCompany.pk) i.email =
          notIn (db.memberEmails fromCompany.pk) i.email := by
        unfold Db.unlinkJobs
        split <;> rfl
      rw [hsame, hmember] at hnot
      cases hnot
    have hread₂ : ((db.unlinkJobs fromCompany fields).readByInvitations fromCompany toCompany now
        (.invitations :: .memberships :: (fields.erase .memberships).erase .invitations)).transfersInvitation
          fromCompany toCompany i = true := by
      rw [Db.readByInvitations, if_neg (fun hc => hc.2 (by simp [invitationsFirst])), transfersInvitation_unlinkJobs]
      exact htransfer
    simp only [hread₁, hread₂, List.mem_cons, true_or, or_true, true_and, if_true, Bool.false_eq_true, if_false] at hpoint
    exact hne (((transfersInvitation_iff.mp htransfer).1.symm).trans (congrArg Invitation.organization hpoint).symm)

end Proof

/-- The order of the fields is indifferent exactly when no field fails, and either a field is refused in any order, or
no employee record goes astray and no member to be moved is invited. -/
theorem orderIndependent_iff (hne : fromCompany.pk ≠ toCompany.pk) (now : Int) (fields : List TransferField)
    (disableFromCompany allowAspToUserCreatedTransfer : Bool) :
    OrderIndependent db fromCompany toCompany now fields disableFromCompany allowAspToUserCreatedTransfer ↔
      db.Commutes fromCompany toCompany fields allowAspToUserCreatedTransfer := by
  by_cases hforbidden : Forbidden fromCompany toCompany allowAspToUserCreatedTransfer
  · refine ⟨fun _ => Or.inl hforbidden, fun _ fields₁ fields₂ _ _ => ⟨Or.inl ⟨?_, ?_⟩, fun _ _ db' hok => ?_⟩⟩
    · exact transfer_forbidden hforbidden
    · exact transfer_forbidden hforbidden
    · rw [transfer_forbidden hforbidden] at hok
      cases hok
  · constructor
    · intro h
      have hcrash := crashes_of_orderIndependent hne hforbidden h
      refine Or.inr ⟨hcrash, ?_⟩
      by_cases hrefuses : ∃ field ∈ fields, db.Refuses fromCompany toCompany fields field
      · exact Or.inl hrefuses
      · have hastray : ¬ db.RecordsAstray fromCompany toCompany fields := fun hastray =>
          not_orderIndependent_of_recordsAstray hne hforbidden hcrash hrefuses hastray h
        exact Or.inr ⟨hastray, fun hinvited =>
          not_orderIndependent_of_membersInvited hne hforbidden hcrash hrefuses hastray hinvited h⟩
    · rintro (h | ⟨hcrash, hrefuses | ⟨hastray, hinvited⟩⟩)
      · exact absurd h hforbidden
      · intro fields₁ fields₂ h₁ h₂
        refine ⟨Or.inl ⟨transfer_refused hne h₁ hcrash hrefuses, transfer_refused hne h₂ hcrash hrefuses⟩, ?_⟩
        intro _ _ db' hok
        rw [transfer_refused hne h₁ hcrash hrefuses] at hok
        cases hok
      · intro fields₁ fields₂ h₁ h₂
        refine ⟨?_, fun hreceived hrecords => keepsRecords hastray hreceived hrecords _⟩
        by_cases hrefuses : ∃ field ∈ fields, db.Refuses fromCompany toCompany fields field
        · exact Or.inl ⟨transfer_refused hne h₁ hcrash hrefuses, transfer_refused hne h₂ hcrash hrefuses⟩
        · exact Or.inr (transfer_perm hne hforbidden hcrash hrefuses hastray hinvited h₁ h₂)

/-! ## An employee record outside the IAE -/

def workshop : Company := ⟨⟨1, .aci⟩, "10000000000001", .asp, "", "", true, "", false, none⟩

def geiq : Company := ⟨⟨2, .geiq⟩, "20000000000002", .geiq, "", "", true, "", false, none⟩

/-- An application that the workshop received, and its employee record. -/
def hired : Db where
  companies := [workshop, geiq]
  related _ := []
  evaluatedSiaes := ∅
  assessmentCompanies := ∅
  jobApplications := [⟨1, none, 1, none, [], none⟩]
  employeeRecords := [⟨1, 1⟩]
  jobSeekerAssignments := ∅
  users := []
  memberships := ∅
  invitations := []

theorem orderIndependent_brand : OrderIndependent hired workshop geiq 0 [.brand, .jobDescriptions] false false :=
  (orderIndependent_iff hired workshop geiq (by decide) 0 [.brand, .jobDescriptions] false false).mpr (by
    refine Or.inr ⟨fun field hfield hcrash => ?_, Or.inr ⟨fun h => ?_, fun h => ?_⟩⟩
    · rcases hcrash with ⟨rfl, -⟩ | ⟨rfl, -⟩ <;> revert hfield <;> decide
    · exact absurd h.1 (by decide)
    · exact absurd h.1 (by decide))

/-- The employee record is refused when it comes before the application, and goes with it after. -/
theorem not_orderIndependent :
    ¬ OrderIndependent hired workshop geiq 0 [.jobApplicationsReceived, .employeeRecordsCreated] false false := by
  intro h
  have hrefused : hired.transferCompanyData workshop 0 geiq [.employeeRecordsCreated, .jobApplicationsReceived] false
      false = .error .transferError := rfl
  obtain ⟨⟨hboth, -⟩ | ⟨db', -, hok⟩, -⟩ :=
    h [.jobApplicationsReceived, .employeeRecordsCreated] [.employeeRecordsCreated, .jobApplicationsReceived]
      (List.Perm.refl _) (List.Perm.swap _ _ _)
  · cases hboth
  · rw [hrefused] at hok
    cases hok

/-! ## The jobs of the applications -/

/-- A transfer that succeeds leaves the jobs of each application to the company that received it exactly when the
applications and the job descriptions go together, or no application of the company names a job that is left. -/
theorem jobsOfCompany_transfer_iff {db db' : Db} {fromCompany toCompany : Company} {now : Int}
    {fields : List TransferField} {disableFromCompany allowAspToUserCreatedTransfer : Bool}
    (hne : fromCompany.pk ≠ toCompany.pk)
    (hrow : (db.companies.find? fun c => c.pk = fromCompany.pk) = some fromCompany) (h : db.JobsOfCompany)
    (hok : db.transferCompanyData fromCompany now toCompany fields disableFromCompany allowAspToUserCreatedTransfer =
      .ok db') : db'.JobsOfCompany ↔ db.JobsFollow fromCompany fields := by
  unfold Db.transferCompanyData at hok
  split at hok
  · cases hok
  · obtain ⟨p, hfold, hfinish⟩ := map_eq_ok.mp hok
    obtain ⟨-, hframe⟩ := frame_foldlM hne hfold
    have hsaved : db'.JobsOfCompany ↔ p.db.JobsOfCompany := by
      rw [← hfinish]
      split <;> exact Iff.rfl
    have happlications := jobApplications_unlinkJobs hrow h fields
    have hunlinked : (db.unlinkJobs fromCompany fields).JobsOfCompany := by
      intro a ha job hjob
      rw [happlications, List.mem_map] at ha
      obtain ⟨a, ha, rfl⟩ := ha
      rw [jobCompany_unlinkJobs]
      by_cases hcleared : a.toCompany = fromCompany.pk ∧ fromCompany.ClearsJobs fields
      · rw [if_pos hcleared] at hjob ⊢
        exact h a ha job (List.mem_append_left _ (by simpa [JobApplication.jobs] using hjob))
      · rw [if_neg hcleared] at hjob ⊢
        exact h a ha job hjob
    rw [hsaved, jobsOfCompany_after hne hunlinked hframe, happlications, List.forall_mem_map]
    refine or_congr_right (forall₂_congr fun a _ => ?_)
    by_cases hclears : fromCompany.ClearsJobs fields
    · by_cases hcompany : a.toCompany = fromCompany.pk
      · simp [hclears, hcompany, jobs_eq_nil]
      · simp [hcompany]
    · simp [hclears, jobs_eq_nil]

/-- The workshop, an application that it accepted for one of its jobs. -/
def acceptedForJob : Db where
  companies := [workshop, geiq]
  related
    | .jobDescription => [⟨7, some 1⟩]
    | _ => []
  evaluatedSiaes := ∅
  assessmentCompanies := ∅
  jobApplications := [⟨1, none, 1, none, [7], some 7⟩]
  employeeRecords := []
  jobSeekerAssignments := ∅
  users := []
  memberships := ∅
  invitations := []

/-- The applications go without the job descriptions: the job selected is cleared, the job of the hiring is not. -/
theorem jobsOfCompany_fails_hiredJob : acceptedForJob.JobsOfCompany ∧
    ∃ db', acceptedForJob.transferCompanyData workshop 0 geiq [.jobApplicationsReceived] false false = .ok db' ∧
      db'.jobApplications = [⟨1, none, 2, none, [], some 7⟩] ∧ ¬ db'.JobsOfCompany := by
  refine ⟨by unfold Db.JobsOfCompany; decide, _, rfl, by decide, ?_⟩
  unfold Db.JobsOfCompany
  decide

/-- Both go. -/
theorem jobsOfCompany_transfer_both : ∃ db',
    acceptedForJob.transferCompanyData workshop 0 geiq [.jobApplicationsReceived, .jobDescriptions] false false = .ok db' ∧
      (db'.JobsOfCompany ↔ acceptedForJob.JobsFollow workshop [.jobApplicationsReceived, .jobDescriptions]) := by
  obtain ⟨db', hok⟩ : ∃ db', acceptedForJob.transferCompanyData workshop 0 geiq
      [.jobApplicationsReceived, .jobDescriptions] false false = .ok db' := ⟨_, rfl⟩
  exact ⟨db', hok, jobsOfCompany_transfer_iff (by decide) rfl (by unfold Db.JobsOfCompany; decide) hok⟩

/-! ## Two assignments in one -/

section Assignments

variable {t t' : Assignments} {toDelete toKeep : AssignmentKey} {calls : List (AssignmentKey × Action)}
  {d k : JobSeekerAssignment}

/-- Merging the rows that two histories leave gives the row of one history exactly when the last of all the calls is
kept, and does not depend on the row that is kept exactly when the last calls of both histories are alike. -/
theorem mergeAssignments_replays_iff (hne : toDelete.columns ≠ toKeep.columns)
    (hnewDeleted : t.row toDelete.columns = none) (hnewKept : t.row toKeep.columns = none)
    (hkeys : ∀ call ∈ calls, call.1 = toDelete ∨ call.1 = toKeep) (hchronological : Chronological calls)
    (h : applyCalls t calls = some t') (hd : t'.row toDelete.columns = some d) (hk : t'.row toKeep.columns = some k) :
    (MergeReplays t t' toKeep calls d k ↔ LastActionKept toDelete toKeep calls) ∧
      (MergeSymmetric t' toDelete toKeep d k ↔ LastActionsAlike toDelete toKeep calls) := by
  obtain ⟨-, -, firstDeleted, hfirstDeleted, lastDeleted, hlastDeleted, hdaction⟩ :=
    exists_first_last hkeys hne (Or.inl rfl) hnewDeleted h hd
  obtain ⟨hprofessional, hjobSeeker, firstKept, hfirstKept, lastKept, hlastKept, hkaction⟩ :=
    exists_first_last hkeys hne (Or.inr rfl) hnewKept h hk
  have hnonempty : calls ≠ [] := List.ne_nil_of_mem (mem_actionsOn.mp (List.mem_of_mem_head? hfirstKept))
  have hfirst : calls.head hnonempty ∈ calls.head? := List.head?_eq_some_head hnonempty
  have hlast : calls.getLast hnonempty ∈ calls.getLast? := List.getLast?_eq_some_getLast hnonempty
  have hcreated := createdAt_first hchronological hkeys hfirstDeleted hfirstKept hfirst
  have hlatest := last_eq hchronological hkeys hlastDeleted hlastKept hlast
  have hmerged := row_mergeAssignments hd hk hne
  generalize calls.head hnonempty = first at *
  generalize calls.getLast hnonempty = last at *
  have hmergedAction : (mergeJobSeekerAssignments d k).action = first.2.followedBy last.2 ↔
      last.2.assignedToUnknownAdvisor = lastKept.assignedToUnknownAdvisor ∧
        (lastDeleted.updatedAt = lastKept.updatedAt → last.2.lastActionKind = lastDeleted.lastActionKind) := by
    have hdeleted : d.action.updatedAt = lastDeleted.updatedAt := congrArg (·.updatedAt) hdaction.symm
    have hkept : k.action.updatedAt = lastKept.updatedAt := congrArg (·.updatedAt) hkaction.symm
    rcases hlatest with ⟨heq, hle⟩ | ⟨heq, hle⟩
    · rw [action_merge_of_le (by rw [hdeleted, hkept]; exact hle), ← hdaction, ← hkaction, heq]
      simp [Action.followedBy, hcreated, eq_comm]
    · rcases Int.lt_or_eq_of_le hle with hlt | hdate
      · rw [action_merge_of_lt (by rw [hdeleted, hkept]; exact hlt), ← hdaction, ← hkaction, heq]
        simp [Action.followedBy, hcreated, Int.ne_of_lt hlt]
      · rw [action_merge_of_le (by rw [hdeleted, hkept]; exact Int.le_of_eq hdate.symm), ← hdaction, ← hkaction, heq]
        simp [Action.followedBy, hcreated, hdate, eq_comm]
  constructor
  · constructor
    · rintro ⟨t'', replayed, merged, hreplay, hreplayed, hrow, heq⟩
      have hlasts := row_replay hprofessional hnewKept hreplay hfirst hlast
      rw [hreplayed, Option.map_some, Option.some.injEq] at hlasts
      obtain rfl : merged = mergeJobSeekerAssignments d k := Option.some.inj (hrow.symm.trans hmerged)
      obtain ⟨hadvisor, hkind⟩ := hmergedAction.mp (heq.trans hlasts)
      refine ⟨(replay_isSome_iff hprofessional hjobSeeker).mp (Option.isSome_of_eq_some hreplay), ?_, ?_⟩
      · intro l hl kept hkept
        obtain rfl : last = l := Option.some.inj (hlast.symm.trans hl)
        obtain rfl : lastKept = kept := Option.some.inj (hlastKept.symm.trans hkept)
        exact hadvisor
      · intro l hl deleted hdeleted kept hkept
        obtain rfl : last = l := Option.some.inj (hlast.symm.trans hl)
        obtain rfl : lastDeleted = deleted := Option.some.inj (hlastDeleted.symm.trans hdeleted)
        obtain rfl : lastKept = kept := Option.some.inj (hlastKept.symm.trans hkept)
        exact hkind
    · rintro ⟨horganization, hadvisor, hkind⟩
      obtain ⟨t'', hreplay⟩ := Option.isSome_iff_exists.mp
        ((replay_isSome_iff (t := t) hprofessional hjobSeeker).mpr horganization)
      obtain ⟨replayed, hreplayed, haction⟩ :=
        Option.map_eq_some_iff.mp (row_replay hprofessional hnewKept hreplay hfirst hlast)
      refine ⟨t'', replayed, _, hreplay, hreplayed, hmerged, ?_⟩
      exact (hmergedAction.mpr ⟨hadvisor last hlast lastKept hlastKept,
        hkind last hlast lastDeleted hlastDeleted lastKept hlastKept⟩).trans haction.symm
  · rw [MergeSymmetric, hmerged, row_mergeAssignments hk hd hne.symm, Option.map_some, Option.map_some,
      Option.some.injEq, action_merge_comm_iff, ← hdaction, ← hkaction]
    constructor
    · intro halike deleted hdeleted kept hkept
      obtain rfl : lastDeleted = deleted := Option.some.inj (hlastDeleted.symm.trans hdeleted)
      obtain rfl : lastKept = kept := Option.some.inj (hlastKept.symm.trans hkept)
      exact halike
    · intro halike
      exact halike lastDeleted hlastDeleted lastKept hlastKept

end Assignments

/-! A professional creates the account of a job seeker, and a colleague accepts an application without a known advisor.
Then the rows of both colleagues are merged. -/

def colleague (pk : Nat) : AssignmentKey := ⟨⟨1, .jobSeeker⟩, ⟨pk, .professional⟩, .company 4⟩

def colleaguesCalls : List (AssignmentKey × Action) :=
  [(colleague 3, ⟨10, 11, "CREATE", false⟩), (colleague 2, ⟨20, 21, "ACCEPT", true⟩)]

def created : JobSeekerAssignment := ⟨1, 1, 3, .company 4, 10, 11, "CREATE", false⟩

def accepted : JobSeekerAssignment := ⟨2, 1, 2, .company 4, 20, 21, "ACCEPT", true⟩

def colleaguesRows : Assignments := ⟨[created, accepted], by decide, by decide⟩

theorem mergeAssignments_loses_advisor : applyCalls ∅ colleaguesCalls = some colleaguesRows ∧
    ¬ MergeReplays ∅ colleaguesRows (colleague 3) colleaguesCalls accepted created ∧
      ¬ MergeSymmetric colleaguesRows (colleague 2) (colleague 3) accepted created := by
  refine ⟨rfl, ?_, by unfold MergeSymmetric; decide⟩
  rintro ⟨t'', replayed, merged, h, hreplayed, hmerged, heq⟩
  cases h
  cases hreplayed
  cases hmerged
  exact absurd heq (by decide)

/-- The other row is kept. -/
theorem mergeAssignments_replays_colleagues :
    (MergeReplays ∅ colleaguesRows (colleague 2) colleaguesCalls created accepted ↔
      LastActionKept (colleague 3) (colleague 2) colleaguesCalls) ∧
      (MergeSymmetric colleaguesRows (colleague 3) (colleague 2) created accepted ↔
        LastActionsAlike (colleague 3) (colleague 2) colleaguesCalls) :=
  mergeAssignments_replays_iff (by decide) rfl rfl (by decide) (by unfold Chronological; decide) rfl rfl rfl

/-! ## The offers of France Travail -/

namespace SyncFtOffers

/-- **The mirror.** A run ends with the rows of the offers that are converted, which a second run leaves as they are,
exactly when the rows and the offers are in step. -/
theorem mirrors_iff_inStep (env : Env) (now : Int) (locked : Nat → Bool) (rawPecOffers rawEaOffers : List RawOffer)
    (db : Db) : Mirrors env now locked rawPecOffers rawEaOffers db ↔ InStep env now locked rawPecOffers rawEaOffers db :=
  ⟨inStep_of_mirrors, mirrors_of_inStep⟩

/-- One appellation and one city. The text of an instant is that of its number. -/
def exampleEnv : Env where
  appellation _ _ := some (some 1)
  autocomplete _ _ := some none
  cities := [⟨1, "37273", []⟩]
  charField := JsonValue.text?
  datetime value := if value.isText "5" then some 5 else none
  storable _ := true
  peSiae := some 9
  isEaOrEatt _ := false

/-- An offer of a company. -/
def exampleOffer : RawOffer where
  id := "OHNOES"
  data := .object [("romeCode", .string "M1805"), ("appellationlibelle", .string "Ingénieur"),
    ("lieuTravail", .object [("codePostal", .string "37000"), ("commune", .string "37273")]),
    ("origineOffre", .object [("urlOrigine", .string "https://candidat.fr/OHNOES")]),
    ("natureContrat", .string "CUI - CAE"), ("entrepriseAdaptee", .bool false), ("dateCreation", .string "5"),
    ("intitule", .string "Ingénieur"), ("description", .string "Code"), ("typeContrat", .string "CDI"),
    ("typeContratLibelle", .string "CDI"), ("nombrePostes", .number 1), ("experienceLibelle", .string "Débutant")]

/-- What is made of it. -/
def exampleJob : Job where
  sourceId := "OHNOES"
  columns := ⟨1, .string "5", .string "Ingénieur", .string "Code", .permanent, .string "CDI", 1, .number 1,
    .string "Débutant", .string "", .string "https://candidat.fr/OHNOES"⟩
  updatedAt := some 5
  sourceTags := [.ftPecOffer]

/-- The row of the offer. -/
def exampleDb : Db := ⟨[newRow 9 5 1 exampleJob], by decide, by decide⟩

example : jobsOf exampleEnv [exampleOffer] = some [exampleJob] := rfl

/-- Another transaction has locked the row: the offer looks new, and its row is refused. -/
theorem not_mirrors_locked : ¬ Mirrors exampleEnv 5 (fun pk => pk = 1) [exampleOffer] [] exampleDb := by
  rintro ⟨_, _, db', -, -, hrun, -⟩
  have hraises : handle exampleEnv 5 (fun pk => pk = 1) [exampleOffer] [] exampleDb = none := rfl
  rw [hraises] at hrun
  cases hrun

end SyncFtOffers

/-! ## Whether a company may operate -/

namespace Operator

/-- The properties and the query sets agree exactly for these companies. -/
theorem agrees_iff_unambiguous {now : Int} {c : Operator} : c.Agrees now ↔ c.Unambiguous now := by
  unfold Unambiguous
  cases hkind : c.kind with
  | reserved =>
      have hactive : c.isActive = true := by simp [isActive, shouldHaveConvention, StoredKind.mem, hkind]
      rw [agrees_of_active hactive]
      simp [active, inObjects, activeLookup, StoredKind.mem, hkind]
  | choice kind =>
      cases kind with
      | geiq =>
          have hactive : c.isActive = true := by
            simp [isActive, shouldHaveConvention, StoredKind.mem, hkind, CompanyKind.siaeKinds]
          rw [agrees_of_active hactive]
          simp [active, inObjects, activeLookup, StoredKind.mem, hkind]
      | opcs =>
          have hactive : c.isActive = true := by
            simp [isActive, shouldHaveConvention, StoredKind.mem, hkind, CompanyKind.siaeKinds]
          rw [agrees_of_active hactive]
          simp [active, inObjects, activeLookup, StoredKind.mem, hkind, hasActiveConvention_iff, or_assoc]
      | ea => exact agrees_of_hidden (by simp [isActive, StoredKind.mem, hkind]) (by simp [inObjects, StoredKind.mem, hkind])
      | eatt => exact agrees_of_hidden (by simp [isActive, StoredKind.mem, hkind]) (by simp [inObjects, StoredKind.mem, hkind])
      | _ => exact agrees_siae hkind (by decide)

/-- An EA, kept from the time when these were imported. -/
def adapted : Operator := ⟨"12345678900011", .choice .ea, .eaEatt, true, none⟩

/-- An antenna of an OPCS that the search does not show. -/
def unlisted : Operator := ⟨"12345678900029", .choice .opcs, .userCreated, false, none⟩

theorem adapted_unlisted_disagree : adapted.mayOperate 0 = .error .attributeError ∧ ¬ adapted.Agrees 0 ∧
    unlisted.isActive = true ∧ unlisted.active = false ∧ ¬ unlisted.Agrees 0 := by
  refine ⟨rfl, fun h => ?_, rfl, rfl, fun h => ?_⟩
  · cases h.1
  · cases h.2

end Operator

/-! ## The clean-up -/

namespace CleanUp

open Itou.Lib.Deletions Itou.Relations

/-- A clean-up that ends removes none of these rows. -/
theorem cleanupSiaesAfterGracePeriod_keeps {db db' : Database} {now : Int} (h : cleanupSiaesAfterGracePeriod db now = .ok db') :
    Keeps db db' := keeps_of_foldlM h

/-- The companies that the clean-up handles as it should. -/
theorem canBeCleanedUp_iff (db : Database) (siae : Siae) :
    CanBeCleanedUp db siae ↔ (Unblocked db siae.pk →
      (siae.source = .asp → siae.convention ≠ none) ∧ (IsAlone db siae → CanBeDeleted db siae.pk)) := by
  have hkeeps : (∃ db', deleteSiae db siae = .ok db' ∧ Keeps db db') ↔ ∃ db', deleteSiae db siae = .ok db' :=
    exists_congr fun db' => and_iff_left_of_imp keeps_of_deleteSiae
  rw [CanBeCleanedUp, hkeeps, ne_eq, couldSiaeBeDeleted_eq_error, couldSiaeBeDeleted_eq_true]
  by_cases h : Unblocked db siae.pk
  · simp only [h, true_and, forall_const, not_and, ne_eq, deleteSiae_succeeds_iff h]
  · simp only [h, false_and, not_false_eq_true, false_imp_iff, and_self]

/-- A company without a convention, and a diagnosis that it made, for which there is no approval. -/
def diagnosisWithoutApproval : Database where
  rows := [⟨.user, 1, [], {}⟩, ⟨.user, 2, [], {}⟩,
    ⟨.company, 10, [], { siret := "12345678901234", kind := .choice .ei, source := .userCreated }⟩,
    ⟨.eligibilityDiagnosis, 20, [(.eligibilityDiagnosisJobSeeker, 1), (.eligibilityDiagnosisAuthor, 2),
      (.eligibilityDiagnosisAuthorSiae, 10)], {}⟩]
  nodup := by decide
  formed := by decide
  accepted := by decide

def diagnosingSiae : Siae := ⟨10, "12345678901234", .choice .ei, .userCreated, false, none⟩

theorem cleanup_diagnosisWithoutApproval : companies diagnosisWithoutApproval = [diagnosingSiae] ∧
    couldSiaeBeDeleted diagnosisWithoutApproval diagnosingSiae = .ok true ∧
    deleteSiae diagnosisWithoutApproval diagnosingSiae = .error .restrictedError ∧
    cleanupSiaesAfterGracePeriod diagnosisWithoutApproval 0 = .error (.database .restrictedError) :=
  ⟨rfl, rfl, rfl, rfl⟩

end CleanUp

end Itou.Companies
