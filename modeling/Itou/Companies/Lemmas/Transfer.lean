import Itou.Companies.Transfer

/-!
# What the fields of a transfer leave

The items of one field are moved once: to move them again changes nothing. A transfer that is not refused leaves each
table as it was, or moved. Only the invitations read another table that a transfer moves.

Each field leads from the database after some fields to the database after one more, in whatever order they come.
-/

namespace Itou.Companies

open Itou.Lib Itou.Organizations

/-! ## Tables, once moved -/

section Moved

variable (db : Db) (fromCompany toCompany : Company) (now : Int)

def Db.movedEvaluatedSiaes : KeyedTable EvaluatedSiae.columns :=
  (EvaluatedSiae.bySiae.moveAll fromCompany.pk toCompany.pk db.evaluatedSiaes).getD db.evaluatedSiaes

def Db.movedAssessmentCompanies : KeyedTable AssessmentCompany.columns :=
  (AssessmentCompany.byCompany.absorbAll AssessmentCompany.upsert fromCompany.pk toCompany.pk
    db.assessmentCompanies).getD db.assessmentCompanies

def Db.movedJobSeekerAssignments : KeyedTable JobSeekerAssignment.columns :=
  (JobSeekerAssignment.byCompany.absorbAll JobSeekerAssignment.upsert (.company fromCompany.pk) (.company toCompany.pk)
    db.jobSeekerAssignments).getD db.jobSeekerAssignments

def Db.movedMemberships : Memberships :=
  ((byCompany now).absorbAll (membershipUpsert now) fromCompany.pk toCompany.pk db.memberships).getD db.memberships

/-- The fields to transfer, once some of them are done, have been read up to the invitations but not to the members. -/
def invitationsFirst (done : List TransferField) : Prop :=
  done.find? (fun field => field = .memberships || field = .invitations) = some .invitations

instance (done : List TransferField) : Decidable (invitationsFirst done) := inferInstanceAs (Decidable (_ = _))

/-- The members that the query for the invitations reads. -/
def Db.readByInvitations (done : List TransferField) : Db :=
  if .memberships ∈ done ∧ ¬ invitationsFirst done then
    { db with memberships := db.movedMemberships fromCompany toCompany now }
  else db

def JobApplication.move (done : List TransferField) (a : JobApplication) : JobApplication :=
  { a with
    senderCompany :=
      if .jobApplicationsSent ∈ done ∧ a.senderCompany = some fromCompany.pk then some toCompany.pk
      else a.senderCompany
    toCompany :=
      if .jobApplicationsReceived ∈ done ∧ a.toCompany = fromCompany.pk then toCompany.pk else a.toCompany
    transferredFrom :=
      if .jobApplicationsTransferred ∈ done ∧ a.transferredFrom = some fromCompany.pk then some toCompany.pk
      else a.transferredFrom }

/-- The database after the fields `done`. -/
def Db.after (done : List TransferField) : Db :=
  { db with
    related := fun model =>
      if (∃ field ∈ done, field.relatedModel = some model) ∧ fromCompany.hides model = false then
        (db.related model).map (Related.move fromCompany.pk toCompany.pk)
      else db.related model
    evaluatedSiaes := if .evaluatedSiaes ∈ done then db.movedEvaluatedSiaes fromCompany toCompany else db.evaluatedSiaes
    assessmentCompanies :=
      if .geiqAssessments ∈ done then db.movedAssessmentCompanies fromCompany toCompany else db.assessmentCompanies
    jobApplications := db.jobApplications.map (JobApplication.move fromCompany toCompany done)
    jobSeekerAssignments :=
      if .jobSeekerAssignments ∈ done then db.movedJobSeekerAssignments fromCompany toCompany
      else db.jobSeekerAssignments
    memberships := if .memberships ∈ done then db.movedMemberships fromCompany toCompany now else db.memberships
    invitations := db.invitations.map fun i =>
      if .invitations ∈ done ∧
          (db.readByInvitations fromCompany toCompany now done).transfersInvitation fromCompany toCompany i then
        { i with organization := toCompany.pk }
      else i }

end Moved

/-! ## To move a table again -/

section Again

variable {db : Db} {fromCompany toCompany : Company} {now : Int}

theorem Related.move_move (r : Related) :
    (r.move fromCompany.pk toCompany.pk).move fromCompany.pk toCompany.pk = r.move fromCompany.pk toCompany.pk := by
  unfold move
  split
  · split <;> rfl
  · rfl

theorem moveAll_evaluatedSiaes (hne : fromCompany.pk ≠ toCompany.pk) :
    EvaluatedSiae.bySiae.moveAll fromCompany.pk toCompany.pk db.evaluatedSiaes = none ↔
      ¬ db.EvaluatedApart fromCompany toCompany := by
  rw [Ownership.moveAll_eq hne]
  obtain ⟨t', ht', -⟩ := Ownership.absorbAll_eq (o := EvaluatedSiae.bySiae) (m := Ownership.Merge.none _)
    (t := db.evaluatedSiaes) hne
  rw [ht']
  have hany : ((db.evaluatedSiaes.rows.filter fun r => EvaluatedSiae.bySiae.owner r = fromCompany.pk).any
      fun s => (EvaluatedSiae.bySiae.counterpart toCompany.pk db.evaluatedSiaes.rows s).isSome) = true ↔
      ¬ db.EvaluatedApart fromCompany toCompany := by
    simp only [List.any_eq_true, List.mem_filter, decide_eq_true_eq, Option.isSome_iff_exists,
      Ownership.counterpart_eq_some, Db.EvaluatedApart, not_forall, not_not]
    constructor
    · rintro ⟨e, ⟨he, howner⟩, e', he', howner', hrest⟩
      exact ⟨e, he, howner, e', he', howner', hrest⟩
    · rintro ⟨e, he, howner, e', he', howner', hrest⟩
      exact ⟨e, ⟨he, howner⟩, e', he', howner', hrest⟩
  by_cases h : db.EvaluatedApart fromCompany toCompany
  · rw [if_neg (fun hyes => hany.mp hyes h)]
    simp [h]
  · rw [if_pos (hany.mpr h)]
    simp [h]

/-- The rows are moved from the table as it was and from the table as it is then. -/
theorem evaluatedSiaes_again (hne : fromCompany.pk ≠ toCompany.pk) (h : db.EvaluatedApart fromCompany toCompany)
    {t : KeyedTable EvaluatedSiae.columns}
    (ht : t = db.evaluatedSiaes ∨ t = db.movedEvaluatedSiaes fromCompany toCompany) :
    EvaluatedSiae.bySiae.moveAll fromCompany.pk toCompany.pk t = some (db.movedEvaluatedSiaes fromCompany toCompany) := by
  cases hmove : EvaluatedSiae.bySiae.moveAll fromCompany.pk toCompany.pk db.evaluatedSiaes with
  | none => exact absurd h ((moveAll_evaluatedSiaes hne).mp hmove)
  | some t' =>
      have hmoved : db.movedEvaluatedSiaes fromCompany toCompany = t' := by rw [Db.movedEvaluatedSiaes, hmove]; rfl
      rw [hmoved] at ht ⊢
      rcases ht with rfl | rfl
      · exact hmove
      · exact Ownership.moveAll_moveAll hne hmove

theorem mergeJobSeekerAssignments_again (a b : JobSeekerAssignment) :
    mergeJobSeekerAssignments a (mergeJobSeekerAssignments a b) = mergeJobSeekerAssignments a b := by
  unfold mergeJobSeekerAssignments
  by_cases h : a.updatedAt < b.updatedAt
  · simp [h]
  · simp [h]

theorem membershipUpsert_again (a b : Membership) :
    (membershipUpsert now).merge a ((membershipUpsert now).merge a b) = (membershipUpsert now).merge a b := by
  simp [membershipUpsert]

theorem assessmentCompanies_again (hne : fromCompany.pk ≠ toCompany.pk) {t : KeyedTable AssessmentCompany.columns}
    (ht : t = db.assessmentCompanies ∨ t = db.movedAssessmentCompanies fromCompany toCompany) :
    (t.rows.filter fun a => a.company = fromCompany.pk).foldlM
      (AssessmentCompany.byCompany.upsert AssessmentCompany.upsert toCompany.pk) t =
        some (db.movedAssessmentCompanies fromCompany toCompany) :=
  Ownership.foldlM_upsert_again (o := AssessmentCompany.byCompany) hne (fun _ _ => rfl) ht

theorem jobSeekerAssignments_again (hne : fromCompany.pk ≠ toCompany.pk) {t : KeyedTable JobSeekerAssignment.columns}
    (ht : t = db.jobSeekerAssignments ∨ t = db.movedJobSeekerAssignments fromCompany toCompany) :
    (t.rows.filter fun a => a.organization = .company fromCompany.pk).foldlM
      (JobSeekerAssignment.byCompany.upsert JobSeekerAssignment.upsert (.company toCompany.pk)) t =
        some (db.movedJobSeekerAssignments fromCompany toCompany) :=
  Ownership.foldlM_upsert_again (o := JobSeekerAssignment.byCompany)
    (fun h => hne (AssignedTo.company.inj h)) mergeJobSeekerAssignments_again ht

/-- Where no row is refused, one failure stands for those of all the rows. -/
theorem foldlM_guard {ε σ α : Type} (f : σ → α → Option σ) (p : α → Bool) (e e' : ε) {l : List α}
    (h : ∀ s ∈ l, p s = true) (t : σ) :
    l.foldlM (fun t s => if p s then (f t s).elim (Except.error e) Except.ok else Except.error e') t =
      (l.foldlM f t).elim (.error e) .ok := by
  induction l generalizing t with
  | nil => rfl
  | cons s l ih =>
      rw [List.foldlM_cons, List.foldlM_cons, if_pos (h s List.mem_cons_self)]
      cases f t s with
      | none => rfl
      | some t' => exact ih (fun r hr => h r (List.mem_cons_of_mem s hr)) t'

/-- The members left to the company were among them at first. -/
theorem Db.MembersProfessional.moved (hne : fromCompany.pk ≠ toCompany.pk) (h : db.MembersProfessional fromCompany) :
    ({ db with memberships := db.movedMemberships fromCompany toCompany now } : Db).MembersProfessional fromCompany := by
  obtain ⟨t', habsorb, -⟩ := Ownership.absorbAll_eq (o := byCompany now) (m := membershipUpsert now)
    (t := db.memberships) hne
  intro m hm horganization
  rw [Db.movedMemberships, habsorb] at hm
  exact h m (Ownership.exists_counterpart_of_left hne habsorb hm horganization).2.1 horganization

theorem transferMemberships_again (db : Db) (now : Int) (hne : fromCompany.pk ≠ toCompany.pk) (db' : Db)
    (husers : db'.users = db.users)
    (hmembers : db'.memberships = db.memberships ∨ db'.memberships = db.movedMemberships fromCompany toCompany now)
    (h : db.MembersProfessional fromCompany) :
    db'.transferMemberships fromCompany toCompany now = .ok (db.movedMemberships fromCompany toCompany now) := by
  have hprofessional : ∀ m ∈ db'.memberships.rows.filter fun m => m.organization = fromCompany.pk,
      db'.isProfessional m.user = true := by
    intro m hm
    rw [List.mem_filter, decide_eq_true_eq] at hm
    unfold Db.isProfessional
    rw [husers]
    rcases hmembers with heq | heq
    · exact h m (heq ▸ hm.1) hm.2
    · exact h.moved hne m (heq ▸ hm.1) hm.2
  have hfold : (db'.memberships.rows.filter fun m => m.organization = fromCompany.pk).foldlM
      ((byCompany now).upsert (membershipUpsert now) toCompany.pk) db'.memberships =
        some (db.movedMemberships fromCompany toCompany now) :=
    Ownership.foldlM_upsert_again (o := byCompany now) hne membershipUpsert_again hmembers
  have hguard := foldlM_guard ((byCompany now).upsert (membershipUpsert now) toCompany.pk)
    (fun m => db'.isProfessional m.user) TransferException.doesNotExist .validationError hprofessional db'.memberships
  rw [hfold] at hguard
  exact hguard

/-- A member who is not a professional stops the transfer. -/
theorem transferMemberships_error (toCompany : Company) (now : Int) (h : ¬ db.MembersProfessional fromCompany) :
    ∃ e, db.transferMemberships fromCompany toCompany now = .error e ∧ e ≠ .transferError := by
  simp only [Db.MembersProfessional, not_forall] at h
  obtain ⟨m, hm, horganization, hnot⟩ := h
  have hmem : m ∈ db.memberships.rows.filter fun m => m.organization = fromCompany.pk :=
    List.mem_filter.mpr ⟨hm, decide_eq_true horganization⟩
  unfold Db.transferMemberships
  generalize db.memberships.rows.filter (fun m => decide (m.organization = fromCompany.pk)) = l at hmem
  generalize db.memberships = t
  induction l generalizing t with
  | nil => cases hmem
  | cons item l ih =>
      rw [List.foldlM_cons]
      rcases List.mem_cons.mp hmem with rfl | hrest
      · rw [if_neg hnot]
        exact ⟨_, rfl, by decide⟩
      · split
        · cases (byCompany now).upsert (membershipUpsert now) toCompany.pk t item with
          | none => exact ⟨_, rfl, by decide⟩
          | some t' => exact ih hrest t'
        · exact ⟨_, rfl, by decide⟩

end Again

/-! ## One field after the other -/

variable {db : Db} {fromCompany toCompany : Company} {now : Int} {done : List TransferField} {field : TransferField}

/-! ## Invitations -/

theorem notIn_memberEmails {company : Nat} {email : String} : notIn (db.memberEmails company) email = true ↔
    ∀ u ∈ db.users, (∃ m ∈ db.memberships.rows, m.organization = company ∧ m.user = u.pk) →
      ∃ e, u.email = some e ∧ e ≠ email := by
  simp only [notIn, Db.memberEmails, List.all_eq_true, List.mem_map, List.mem_filter, List.any_eq_true,
    Bool.and_eq_true, decide_eq_true_eq, Option.any_eq_true]
  constructor
  · rintro h u hu ⟨m, hm, horganization, huser⟩
    exact h u.email ⟨u, ⟨hu, m, hm, huser, horganization⟩, rfl⟩
  · rintro h e ⟨u, ⟨hu, m, hm, huser, horganization⟩, rfl⟩
    exact h u hu ⟨m, hm, horganization, huser⟩

/-- The members of the other company are, in the end, those of both. -/
theorem notIn_moved (hne : fromCompany.pk ≠ toCompany.pk) {email : String} :
    notIn (({ db with memberships := db.movedMemberships fromCompany toCompany now } : Db).memberEmails
      toCompany.pk) email = true ↔
      notIn (db.memberEmails fromCompany.pk) email = true ∧ notIn (db.memberEmails toCompany.pk) email = true := by
  obtain ⟨t', habsorb, -⟩ := Ownership.absorbAll_eq (o := byCompany now) (m := membershipUpsert now)
    (t := db.memberships) hne
  have hmoved : db.movedMemberships fromCompany toCompany now = t' := by rw [Db.movedMemberships, habsorb]; rfl
  have hmembers : ∀ user, (∃ m ∈ t'.rows, m.organization = toCompany.pk ∧ m.user = user) ↔
      ∃ m ∈ db.memberships.rows, (m.organization = fromCompany.pk ∨ m.organization = toCompany.pk) ∧ m.user = user :=
    fun user => Ownership.exists_owner_iff (o := byCompany now) hne habsorb
  simp only [notIn_memberEmails, hmoved, hmembers]
  constructor
  · intro h
    constructor
    · rintro u hu ⟨m, hm, horganization, huser⟩
      exact h u hu ⟨m, hm, Or.inl horganization, huser⟩
    · rintro u hu ⟨m, hm, horganization, huser⟩
      exact h u hu ⟨m, hm, Or.inr horganization, huser⟩
  · rintro ⟨hfrom, hto⟩ u hu ⟨m, hm, horganization, huser⟩
    rcases horganization with h | h
    · exact hfrom u hu ⟨m, hm, h, huser⟩
    · exact hto u hu ⟨m, hm, h, huser⟩

theorem transfersInvitation_iff {i : Invitation} : db.transfersInvitation fromCompany toCompany i = true ↔
    i.organization = fromCompany.pk ∧ notIn (db.memberEmails toCompany.pk) i.email = true := by
  simp [Db.transfersInvitation]

theorem transfersInvitation_moved (hne : fromCompany.pk ≠ toCompany.pk) {i : Invitation} :
    ({ db with memberships := db.movedMemberships fromCompany toCompany now } : Db).transfersInvitation
      fromCompany toCompany i = true ↔
      db.transfersInvitation fromCompany toCompany i = true ∧ notIn (db.memberEmails fromCompany.pk) i.email = true := by
  rw [transfersInvitation_iff, transfersInvitation_iff, notIn_moved hne]
  exact ⟨fun h => ⟨⟨h.1, h.2.2⟩, h.2.1⟩, fun h => ⟨h.1.1, h.2, h.1.2⟩⟩

/-- Only the users and their memberships tell which invitations are transferred. -/
theorem transfersInvitation_after : (db.after fromCompany toCompany now done).transfersInvitation fromCompany toCompany =
    ({ db with memberships := (db.after fromCompany toCompany now done).memberships } : Db).transfersInvitation
      fromCompany toCompany := rfl

theorem invitationsFirst_concat (h : .memberships ∈ done ∨ .invitations ∈ done) :
    invitationsFirst (done ++ [field]) ↔ invitationsFirst done := by
  have hsome : (done.find? fun field => field = .memberships || field = .invitations).isSome = true := by
    rw [List.find?_isSome]
    rcases h with h | h
    · exact ⟨_, h, by decide⟩
    · exact ⟨_, h, by decide⟩
  obtain ⟨found, hfound⟩ := Option.isSome_iff_exists.mp hsome
  unfold invitationsFirst
  rw [List.find?_append, hfound]
  rfl

theorem not_invitationsFirst (h : .invitations ∉ done) : ¬ invitationsFirst done :=
  fun hfirst => h (List.mem_of_find?_eq_some hfirst)

theorem invitationsFirst_concat_invitations (hmembers : .memberships ∉ done) (hinvitations : .invitations ∉ done) :
    invitationsFirst (done ++ [.invitations]) := by
  have hnone : done.find? (fun field => field = .memberships || field = .invitations) = none := by
    rw [List.find?_eq_none]
    intro field hfield h
    simp only [Bool.or_eq_true, decide_eq_true_eq] at h
    rcases h with rfl | rfl
    · exact hmembers hfield
    · exact hinvitations hfield
  unfold invitationsFirst
  rw [List.find?_append, hnone]
  rfl

/-- A second reading finds no invitation that the first did not. -/
theorem transfersInvitation_again (db : Db) (now : Int) (done : List TransferField)
    (hne : fromCompany.pk ≠ toCompany.pk) {i : Invitation}
    (h : (db.after fromCompany toCompany now done).transfersInvitation fromCompany toCompany i = true) :
    (db.readByInvitations fromCompany toCompany now done).transfersInvitation fromCompany toCompany i = true := by
  rw [transfersInvitation_after] at h
  unfold Db.readByInvitations
  by_cases hmembers : TransferField.memberships ∈ done
  · simp only [Db.after, hmembers, if_true, true_and] at h ⊢
    split
    · exact h
    · exact ((transfersInvitation_moved hne).mp h).1
  · simp only [Db.after, hmembers, if_false, false_and] at h ⊢
    exact h

theorem invitationsFirst_of_not_memberships (hinvitations : .invitations ∈ done) (hmembers : .memberships ∉ done) :
    invitationsFirst done := by
  have hsome : (done.find? fun field => field = .memberships || field = .invitations).isSome = true := by
    rw [List.find?_isSome]
    exact ⟨_, hinvitations, by decide⟩
  obtain ⟨found, hfound⟩ := Option.isSome_iff_exists.mp hsome
  have hwhich := List.find?_some hfound
  simp only [Bool.or_eq_true, decide_eq_true_eq] at hwhich
  rcases hwhich with rfl | rfl
  · exact absurd (List.mem_of_find?_eq_some hfound) hmembers
  · exact hfound

theorem readByInvitations_concat (hinvitations : .invitations ∈ done) :
    db.readByInvitations fromCompany toCompany now (done ++ [field]) =
      db.readByInvitations fromCompany toCompany now done := by
  unfold Db.readByInvitations
  simp only [invitationsFirst_concat (Or.inr hinvitations)]
  by_cases hmembers : TransferField.memberships ∈ done
  · simp [hmembers]
  · simp [hmembers, invitationsFirst_of_not_memberships hinvitations hmembers]

/-- Another field leaves the invitations as they are. -/
theorem invitations_concat (hfield : field ≠ .invitations) :
    (db.after fromCompany toCompany now (done ++ [field])).invitations =
      (db.after fromCompany toCompany now done).invitations := by
  simp only [Db.after]
  refine List.map_congr_left fun i _ => ?_
  by_cases hinvitations : TransferField.invitations ∈ done
  · simp [hinvitations, readByInvitations_concat]
  · simp [hinvitations, hfield.symm]

/-- The invitations that are found are moved, those that were moved are not found again. -/
theorem invitations_concat_invitations (hne : fromCompany.pk ≠ toCompany.pk) :
    (db.after fromCompany toCompany now (done ++ [.invitations])).invitations =
      (db.after fromCompany toCompany now done).invitations.map fun i =>
        if (db.after fromCompany toCompany now done).transfersInvitation fromCompany toCompany i then
          { i with organization := toCompany.pk }
        else i := by
  have hagain := fun i => transfersInvitation_again db now done (i := i) hne
  rw [transfersInvitation_after] at hagain ⊢
  simp only [Db.after, List.map_map]
  refine List.map_congr_left fun i _ => ?_
  by_cases hinvitations : TransferField.invitations ∈ done
  · simp only [hinvitations, readByInvitations_concat, List.mem_append, true_or, true_and, Function.comp]
    by_cases hread : (db.readByInvitations fromCompany toCompany now done).transfersInvitation fromCompany toCompany i
    · have hmoved : ∀ db' : Db, db'.transfersInvitation fromCompany toCompany
          { i with organization := toCompany.pk } = false := by
        intro db'
        simp [Db.transfersInvitation, hne.symm]
      simp only [hread, if_true, hmoved]
      rfl
    · have hnot := fun h => hread (hagain i h)
      simp only [Db.after] at hnot
      rw [if_neg hread, if_neg hnot]
  · have hfirst : invitationsFirst (done ++ [.invitations]) ↔ .memberships ∉ done := by
      constructor
      · intro h hmembers
        exact not_invitationsFirst hinvitations ((invitationsFirst_concat (Or.inl hmembers)).mp h)
      · intro hmembers
        exact invitationsFirst_concat_invitations hmembers hinvitations
    unfold Db.readByInvitations
    by_cases hmembers : TransferField.memberships ∈ done
    · simp [hinvitations, hmembers, hfirst]
    · simp [hinvitations, hmembers]

/-! ## Items -/

theorem applications_concat (hne : fromCompany.pk ≠ toCompany.pk) (a : JobApplication) :
    JobApplication.move fromCompany toCompany (done ++ [field]) a =
      JobApplication.move fromCompany toCompany [field] (JobApplication.move fromCompany toCompany done a) := by
  have hne' : ¬ toCompany.pk = fromCompany.pk := fun h => hne h.symm
  simp only [JobApplication.move, List.mem_append, List.mem_singleton, JobApplication.mk.injEq, true_and, and_true]
  refine ⟨?_, ?_, ?_⟩
  · by_cases h : a.senderCompany = some fromCompany.pk <;> by_cases h' : TransferField.jobApplicationsSent ∈ done <;>
      simp [h, h', hne']
  · by_cases h : a.toCompany = fromCompany.pk <;> by_cases h' : TransferField.jobApplicationsReceived ∈ done <;>
      simp [h, h', hne']
  · by_cases h : a.transferredFrom = some fromCompany.pk <;>
      by_cases h' : TransferField.jobApplicationsTransferred ∈ done <;> simp [h, h', hne']

theorem related_concat (db : Db) (fromCompany toCompany : Company) (now : Int) (done : List TransferField)
    (field : TransferField) (model : RelatedModel) :
    (db.after fromCompany toCompany now (done ++ [field])).related model =
      if field.relatedModel = some model ∧ fromCompany.hides model = false then
        ((db.after fromCompany toCompany now done).related model).map (Related.move fromCompany.pk toCompany.pk)
      else (db.after fromCompany toCompany now done).related model := by
  simp only [Db.after, List.mem_append, List.mem_singleton]
  by_cases hdone : ∃ field ∈ done, field.relatedModel = some model
  · obtain ⟨field', hfield', hmodel⟩ := hdone
    have hall : ∃ f, (f ∈ done ∨ f = field) ∧ f.relatedModel = some model := ⟨field', Or.inl hfield', hmodel⟩
    have hdone : ∃ f ∈ done, f.relatedModel = some model := ⟨field', hfield', hmodel⟩
    by_cases hhides : fromCompany.hides model = false
    · simp [hall, hdone, hhides, Function.comp_def, Related.move_move]
    · simp [hhides]
  · have hall : (∃ f, (f ∈ done ∨ f = field) ∧ f.relatedModel = some model) ↔ field.relatedModel = some model := by
      constructor
      · rintro ⟨f, hf | rfl, hmodel⟩
        · exact absurd ⟨f, hf, hmodel⟩ hdone
        · exact hmodel
      · intro h
        exact ⟨field, Or.inr rfl, h⟩
    simp [hall, hdone]

/-- What one more field changes. -/
theorem after_concat (hne : fromCompany.pk ≠ toCompany.pk) :
    db.after fromCompany toCompany now (done ++ [field]) =
      { db.after fromCompany toCompany now done with
        related := (db.after fromCompany toCompany now (done ++ [field])).related
        evaluatedSiaes :=
          if field = .evaluatedSiaes then db.movedEvaluatedSiaes fromCompany toCompany
          else (db.after fromCompany toCompany now done).evaluatedSiaes
        assessmentCompanies :=
          if field = .geiqAssessments then db.movedAssessmentCompanies fromCompany toCompany
          else (db.after fromCompany toCompany now done).assessmentCompanies
        jobApplications := (db.after fromCompany toCompany now done).jobApplications.map
          (JobApplication.move fromCompany toCompany [field])
        jobSeekerAssignments :=
          if field = .jobSeekerAssignments then db.movedJobSeekerAssignments fromCompany toCompany
          else (db.after fromCompany toCompany now done).jobSeekerAssignments
        memberships :=
          if field = .memberships then db.movedMemberships fromCompany toCompany now
          else (db.after fromCompany toCompany now done).memberships
        invitations := (db.after fromCompany toCompany now (done ++ [field])).invitations } := by
  refine Db.ext rfl rfl ?_ ?_ ?_ rfl ?_ rfl ?_ rfl
  · by_cases h : field = .evaluatedSiaes
    · simp [Db.after, h]
    · simp [Db.after, h, Ne.symm h]
  · by_cases h : field = .geiqAssessments
    · simp [Db.after, h]
    · simp [Db.after, h, Ne.symm h]
  · simp [Db.after, Function.comp_def, applications_concat hne]
  · by_cases h : field = .jobSeekerAssignments
    · simp [Db.after, h]
    · simp [Db.after, h, Ne.symm h]
  · by_cases h : field = .memberships
    · simp [Db.after, h]
    · simp [Db.after, h, Ne.symm h]

theorem related_concat_none (db : Db) (fromCompany toCompany : Company) (now : Int) (done : List TransferField)
    (hmodel : field.relatedModel = none) :
    (db.after fromCompany toCompany now (done ++ [field])).related = (db.after fromCompany toCompany now done).related := by
  funext model
  rw [related_concat, hmodel, if_neg (fun h => nomatch h.1)]

theorem map_move_none (hsent : field ≠ .jobApplicationsSent) (hreceived : field ≠ .jobApplicationsReceived)
    (htransferred : field ≠ .jobApplicationsTransferred) (applications : List JobApplication) :
    applications.map (JobApplication.move fromCompany toCompany [field]) = applications := by
  refine (List.map_congr_left fun a _ => ?_).trans applications.map_id
  simp [JobApplication.move, hsent.symm, hreceived.symm, htransferred.symm]

/-- A field of the company itself, or a field that is only reported, leaves the items as they are. -/
theorem after_concat_none (hne : fromCompany.pk ≠ toCompany.pk) (hmodel : field.relatedModel = none)
    (hnot : field ∉ [.evaluatedSiaes, .geiqAssessments, .jobApplicationsSent, .jobApplicationsReceived,
      .jobApplicationsTransferred, .jobSeekerAssignments, .memberships, .invitations]) :
    db.after fromCompany toCompany now (done ++ [field]) = db.after fromCompany toCompany now done := by
  simp only [List.mem_cons, List.not_mem_nil, or_false, not_or] at hnot
  obtain ⟨h₁, h₂, h₃, h₄, h₅, h₆, h₇, h₈⟩ := hnot
  rw [after_concat hne, if_neg h₁, if_neg h₂, if_neg h₆, if_neg h₇, map_move_none h₃ h₄ h₅,
    related_concat_none db fromCompany toCompany now done hmodel, invitations_concat h₈]

/-- One more field moves its items. -/
theorem transferItems_after (hne : fromCompany.pk ≠ toCompany.pk)
    (hevaluated : field = .evaluatedSiaes → db.EvaluatedApart fromCompany toCompany)
    (hmembers : field = .memberships → db.MembersProfessional fromCompany) :
    (db.after fromCompany toCompany now done).transferItems fromCompany toCompany now field =
      .ok (db.after fromCompany toCompany now (done ++ [field])) := by
  cases hmodel : field.relatedModel with
  | some model =>
      have hrelated := related_concat db fromCompany toCompany now done field
      rw [after_concat hne, if_neg (by rintro rfl; cases hmodel), if_neg (by rintro rfl; cases hmodel),
        if_neg (by rintro rfl; cases hmodel), if_neg (by rintro rfl; cases hmodel),
        map_move_none (by rintro rfl; cases hmodel) (by rintro rfl; cases hmodel) (by rintro rfl; cases hmodel),
        invitations_concat (by rintro rfl; cases hmodel)]
      unfold Db.transferItems
      simp only [hmodel]
      split
      · rename_i hhides
        refine congrArg Except.ok (Db.ext rfl (funext fun model' => ?_) rfl rfl rfl rfl rfl rfl rfl rfl)
        rw [hrelated, if_neg]
        rintro ⟨h, hshown⟩
        rw [hmodel, Option.some.injEq] at h
        rw [← h, hhides] at hshown
        cases hshown
      · rename_i hhides
        refine congrArg Except.ok (Db.ext rfl (funext fun model' => ?_) rfl rfl rfl rfl rfl rfl rfl rfl)
        rw [hrelated, hmodel]
        by_cases h : model' = model
        · subst h
          simp [hhides]
        · simp [h, Ne.symm h]
  | none =>
      have hrelated := related_concat_none db fromCompany toCompany now done hmodel
      cases field with
      | evaluatedSiaes =>
          have htable : EvaluatedSiae.bySiae.moveAll fromCompany.pk toCompany.pk
              (db.after fromCompany toCompany now done).evaluatedSiaes =
                some (db.movedEvaluatedSiaes fromCompany toCompany) :=
            evaluatedSiaes_again hne (hevaluated rfl) (ite_eq_or_eq _ _ _).symm
          simp only [Db.transferItems, hmodel, htable]
          refine congrArg Except.ok ?_
          rw [after_concat hne, hrelated, invitations_concat (by decide), map_move_none (by decide) (by decide) (by decide)]
          rfl
      | geiqAssessments =>
          have htable := assessmentCompanies_again hne
            (t := (db.after fromCompany toCompany now done).assessmentCompanies) (ite_eq_or_eq _ _ _).symm
          simp only [Db.transferItems, hmodel, htable]
          refine congrArg Except.ok ?_
          rw [after_concat hne, hrelated, invitations_concat (by decide), map_move_none (by decide) (by decide) (by decide)]
          rfl
      | jobSeekerAssignments =>
          have htable := jobSeekerAssignments_again hne
            (t := (db.after fromCompany toCompany now done).jobSeekerAssignments) (ite_eq_or_eq _ _ _).symm
          simp only [Db.transferItems, hmodel, htable]
          refine congrArg Except.ok ?_
          rw [after_concat hne, hrelated, invitations_concat (by decide), map_move_none (by decide) (by decide) (by decide)]
          rfl
      | memberships =>
          have htable := transferMemberships_again db now hne (db.after fromCompany toCompany now done) rfl
            (ite_eq_or_eq _ _ _).symm (hmembers rfl)
          simp only [Db.transferItems, hmodel, htable]
          refine congrArg Except.ok ?_
          rw [after_concat hne, hrelated, invitations_concat (by decide), map_move_none (by decide) (by decide) (by decide)]
          rfl
      | invitations =>
          simp only [Db.transferItems, hmodel]
          refine congrArg Except.ok ?_
          rw [after_concat hne, hrelated, invitations_concat_invitations hne, map_move_none (by decide) (by decide) (by decide)]
          rfl
      | jobApplicationsSent | jobApplicationsReceived | jobApplicationsTransferred =>
          simp only [Db.transferItems, hmodel]
          refine congrArg Except.ok ?_
          rw [after_concat hne, hrelated, invitations_concat (by decide)]
          refine Db.ext rfl rfl rfl rfl (List.map_congr_left fun a _ => ?_) rfl rfl rfl rfl rfl
          simp only [JobApplication.move, List.mem_singleton, reduceCtorEq, false_and, if_false, true_and]
          split <;> rfl
      | employeeRecordsCreated | brand | description | isSearchable | phone =>
          rw [after_concat_none hne rfl (by decide)]
          rfl
      | iaeDiagCreated | geiqDiagCreated | jobDescriptions | prolongations | prolongationRequests | suspensions =>
          cases hmodel

/-! ## Items that are left -/

theorem map_any_left {rows : List Related} (hne : fromCompany.pk ≠ toCompany.pk) :
    (rows.map (Related.move fromCompany.pk toCompany.pk)).any (fun r => r.company = some fromCompany.pk) = false := by
  have hne' : ¬ toCompany.pk = fromCompany.pk := fun h => hne h.symm
  rw [List.any_map, List.any_eq_false]
  intro r _
  simp only [Function.comp, Related.move]
  split
  · simp [hne']
  · rename_i h
    simp [h]

theorem evaluatedSiaes_left (hne : fromCompany.pk ≠ toCompany.pk) {e : EvaluatedSiae}
    (he : e ∈ (db.movedEvaluatedSiaes fromCompany toCompany).rows) (hsiae : e.siae = fromCompany.pk) :
    e ∈ db.evaluatedSiaes.rows := by
  unfold Db.movedEvaluatedSiaes at he
  cases hmove : EvaluatedSiae.bySiae.moveAll fromCompany.pk toCompany.pk db.evaluatedSiaes with
  | none => rwa [hmove] at he
  | some t =>
      rw [hmove] at he
      rw [Ownership.moveAll_eq hne] at hmove
      split at hmove
      · cases hmove
      · exact (Ownership.exists_counterpart_of_left hne hmove he hsiae).2.1

theorem assessmentCompanies_left (hne : fromCompany.pk ≠ toCompany.pk) {a : AssessmentCompany}
    (ha : a ∈ (db.movedAssessmentCompanies fromCompany toCompany).rows) (hcompany : a.company = fromCompany.pk) :
    a ∈ db.assessmentCompanies.rows := by
  obtain ⟨t', habsorb, -⟩ := Ownership.absorbAll_eq (o := AssessmentCompany.byCompany) (m := AssessmentCompany.upsert)
    (t := db.assessmentCompanies) hne
  rw [Db.movedAssessmentCompanies, habsorb] at ha
  exact (Ownership.exists_counterpart_of_left hne habsorb ha hcompany).2.1

/-- The fields that some companies cannot receive. -/
def TransferField.isRestricted (field : TransferField) : Bool := field.iaeOnly || field.geiqOnly

/-- An item of a restricted field that is left was there at first. -/
theorem hasItems_of_after (hne : fromCompany.pk ≠ toCompany.pk) (hfield : field.isRestricted = true)
    (h : (db.after fromCompany toCompany now done).hasItems fromCompany toCompany field = true) :
    db.hasItems fromCompany toCompany field = true ∧
      (field = .employeeRecordsCreated → .jobApplicationsReceived ∉ done) := by
  cases hmodel : field.relatedModel with
  | some model =>
      simp only [Db.hasItems, hmodel, Bool.and_eq_true] at h ⊢
      refine ⟨⟨h.1, ?_⟩, by rintro rfl; cases hmodel⟩
      simp only [Db.after] at h
      split at h
      · rw [map_any_left hne] at h
        cases h.2
      · exact h.2
  | none =>
      cases field with
      | evaluatedSiaes =>
          refine ⟨?_, fun hfield => nomatch hfield⟩
          simp only [Db.hasItems, hmodel, List.any_eq_true, decide_eq_true_eq, Db.after] at h ⊢
          obtain ⟨e, he, hsiae⟩ := h
          split at he
          · exact ⟨e, evaluatedSiaes_left hne he hsiae, hsiae⟩
          · exact ⟨e, he, hsiae⟩
      | geiqAssessments =>
          refine ⟨?_, fun hfield => nomatch hfield⟩
          simp only [Db.hasItems, hmodel, List.any_eq_true, decide_eq_true_eq, Db.after] at h ⊢
          obtain ⟨a, ha, hcompany⟩ := h
          split at ha
          · exact ⟨a, assessmentCompanies_left hne ha hcompany, hcompany⟩
          · exact ⟨a, ha, hcompany⟩
      | employeeRecordsCreated =>
          simp only [Db.hasItems, hmodel, List.any_eq_true, decide_eq_true_eq, Bool.and_eq_true, Db.after,
            List.mem_map] at h ⊢
          obtain ⟨r, hr, -, ⟨a, ha, rfl⟩, hpk, hcompany⟩ := h
          simp only [JobApplication.move] at hpk hcompany
          split at hcompany
          · exact absurd hcompany.symm hne
          · rename_i hnot
            exact ⟨⟨r, hr, a, ha, hpk, hcompany⟩, fun _ hreceived => hnot ⟨hreceived, hcompany⟩⟩
      | iaeDiagCreated | geiqDiagCreated | jobDescriptions | prolongations | prolongationRequests | suspensions =>
          cases hmodel
      | _ => cases hfield

/-- The items of a restricted field are there as long as it is not done. -/
theorem hasItems_after (hnot : field ∉ done) (hfield : field.isRestricted = true)
    (hrecords : field = .employeeRecordsCreated → .jobApplicationsReceived ∉ done)
    (h : db.hasItems fromCompany toCompany field = true) :
    (db.after fromCompany toCompany now done).hasItems fromCompany toCompany field = true := by
  cases hmodel : field.relatedModel with
  | some model =>
      have hnone : ¬ ∃ field' ∈ done, field'.relatedModel = some model := by
        rintro ⟨field', hfield', hmodel'⟩
        have heq : field' = field := by
          cases field <;> cases hmodel <;> cases field' <;> first | rfl | cases hmodel'
        exact hnot (heq ▸ hfield')
      simp only [Db.hasItems, hmodel, Db.after, hnone, false_and, if_false] at h ⊢
      exact h
  | none =>
      cases field with
      | evaluatedSiaes | geiqAssessments =>
          simp only [Db.hasItems, hmodel, Db.after, hnot, if_false] at h ⊢
          exact h
      | employeeRecordsCreated =>
          simp only [Db.hasItems, hmodel, Db.after, List.any_map, Function.comp_def, JobApplication.move,
            hrecords rfl, false_and, if_false] at h ⊢
          exact h
      | iaeDiagCreated | geiqDiagCreated | jobDescriptions | prolongations | prolongationRequests | suspensions =>
          cases hmodel
      | _ => cases hfield

end Itou.Companies
