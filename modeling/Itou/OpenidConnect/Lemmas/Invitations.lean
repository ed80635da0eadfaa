import Itou.OpenidConnect.Lemmas.Accounts
import Itou.Organizations.Lemmas.Invitations

/-!
# The invitations of a login

A login accepts the invitations to the e-mail of its user, and no others. Nothing refuses them.
-/

namespace Itou.OpenidConnect

open Itou.Lib
open Itou.Organizations (Invitation membership?_eq_some saveMembership_eq_some)

variable {citext : String → String} {env : Environment} {localdate : Int → Int} {now : Int} {organization : Nat}

/-! ## Methods of the organizations -/

/-- The users are the same, and the invitations but those of `ids` are as open as before. -/
structure KeepsOpen (ids : List Nat) (before after : Organizations.Db) : Prop where
  users : after.users = before.users
  primaryKeys : after.invitations.map Invitation.id = before.invitations.map Invitation.id
  invitations : ∀ i ∈ before.invitations, i.id ∉ ids →
    ∃ i' ∈ after.invitations, i'.id = i.id ∧ i'.email = i.email ∧ (i.acceptedAt = none → i'.acceptedAt = none)

namespace KeepsOpen

variable {ids ids' : List Nat} {before after later : Organizations.Db}

theorem refl : KeepsOpen ids before before := ⟨rfl, rfl, fun i hi _ => ⟨i, hi, rfl, rfl, id⟩⟩

theorem trans (h : KeepsOpen ids before after) (h' : KeepsOpen ids' after later) :
    KeepsOpen (ids ++ ids') before later := by
  refine ⟨h'.users.trans h.users, h'.primaryKeys.trans h.primaryKeys, fun i hi hid => ?_⟩
  rw [List.mem_append, not_or] at hid
  obtain ⟨i', hi', hid', hemail', haccepted'⟩ := h.invitations i hi hid.1
  obtain ⟨i'', hi'', hid'', hemail'', haccepted''⟩ := h'.invitations i' hi' (hid' ▸ hid.2)
  exact ⟨i'', hi'', hid''.trans hid', hemail''.trans hemail', fun hopen => haccepted'' (haccepted' hopen)⟩

/-- An update of other columns. -/
theorem of_map {f : Invitation → Invitation} (husers : after.users = before.users)
    (hf : after.invitations = before.invitations.map f) (hid : ∀ i, (f i).id = i.id)
    (hemail : ∀ i, (f i).email = i.email) (haccepted : ∀ i, i.id ∉ ids → (f i).acceptedAt = i.acceptedAt) :
    KeepsOpen ids before after := by
  refine ⟨husers, ?_, fun i hi hi' => ⟨f i, hf ▸ List.mem_map_of_mem hi, hid i, hemail i, ?_⟩⟩
  · rw [hf, List.map_map]
    exact List.map_congr_left fun i _ => hid i
  · exact fun hopen => (haccepted i hi').trans hopen

theorem expire (p : Invitation → Bool) : KeepsOpen ids before (before.expire localdate now organization p) := by
  refine of_map rfl rfl (fun i => ?_) (fun i => ?_) fun i _ => ?_
  · split
    · rfl
    · rfl
  · split
    · rfl
    · rfl
  · split
    · rfl
    · rfl

theorem addOrActivateMembership {user : Organizations.User}
    (h : before.addOrActivateMembership localdate now organization user none = some after) :
    KeepsOpen [] before after := by
  obtain ⟨saved, hsaved, rfl⟩ := Option.map_eq_some_iff.mp h
  obtain ⟨rows, -, rfl⟩ := saveMembership_eq_some hsaved
  have hexpired : KeepsOpen ([] ++ []) { before with memberships := rows } (Organizations.Db.expireInvitations localdate now
      organization { before with memberships := rows } user) := (expire _).trans (expire _)
  exact ⟨hexpired.users, hexpired.primaryKeys, hexpired.invitations⟩

theorem acceptInvitation (id : Nat) : KeepsOpen [id] before (before.acceptInvitation now id) := by
  refine of_map rfl rfl (fun i => ?_) (fun i => ?_) fun i hi => ?_
  · split
    · rfl
    · rfl
  · split
    · rfl
    · rfl
  · rw [if_neg (List.mem_singleton.not.mp hi)]

theorem handleInvitation {requester : Organizations.User} {targetIsActive : Bool} {i : Invitation}
    (h : before.handleInvitation citext localdate now requester targetIsActive i = some after) :
    KeepsOpen [i.id] before after := by
  unfold Organizations.Db.handleInvitation at h
  split at h
  · cases h
  · split at h
    · split at h
      · obtain ⟨joined, hjoined, rfl⟩ := Option.map_eq_some_iff.mp h
        exact (addOrActivateMembership hjoined).trans (acceptInvitation i.id)
      · cases h
        exact refl
    · cases h

theorem handleAll {requester : Organizations.User} {targetIsActive : Invitation → Bool} {opened : List Invitation}
    (h : opened.foldlM (fun (organizations : Organizations.Db) i =>
      organizations.handleInvitation citext localdate now requester (targetIsActive i) i) before = some after) :
    KeepsOpen (opened.map Invitation.id) before after := by
  induction opened generalizing before with
  | nil =>
      cases h
      exact refl
  | cons i opened ih =>
      rw [List.foldlM_cons] at h
      obtain ⟨next, hnext, hrest⟩ := Option.bind_eq_some_iff.mp h
      exact (handleInvitation hnext).trans (ih hrest)

end KeepsOpen

/-! ## Nothing is refused -/

theorem exists_addOrActivateMembership (localdate : Int → Int) (now : Int) (organization : Nat)
    (before : Organizations.Db) {user : Organizations.User} (huser : user.isProfessional = true) :
    ∃ after, before.addOrActivateMembership localdate now organization user none = some after := by
  simp only [Organizations.Db.addOrActivateMembership, Organizations.Db.saveMembership, huser, if_true, Option.map_map]
  refine Option.isSome_iff_exists.mp (Option.isSome_map.trans ?_)
  cases hmembership : before.membership? organization user.pk with
  | some membership => rfl
  | none =>
      refine Option.isSome_iff_ne_none.mpr fun hnone => ?_
      obtain ⟨m, hm, hkey⟩ := (KeyedTable.insert_eq_none rfl).mp hnone
      have hmissing := List.find?_eq_none.mp hmembership m hm
      have hboth : m.user = user.pk ∧ m.organization = organization := Prod.mk.inj hkey
      simp [hboth] at hmissing

section

variable {db : Db citext} {user : User}

/-- The guest of an invitation to the e-mail of an account. -/
theorem userOfEmail_asMember (hu : user ∈ db.users.rows) {email : String} (hemail : user.email = some email)
    {before : Organizations.Db} (husers : before.users = db.users.rows.map User.asMember) :
    before.userOfEmail citext email = some user.asMember := by
  rw [Organizations.Db.userOfEmail, husers, List.find?_map]
  have hfound : (db.users.rows.find? fun u => u.hasEmail citext email) = some user := by
    cases hfind : db.users.rows.find? fun u => u.hasEmail citext email with
    | none =>
        have hmissing := List.find?_eq_none.mp hfind user hu
        simp [User.hasEmail, hemail] at hmissing
    | some other =>
        have hother : other.hasEmail citext email = true := by simpa using List.find?_some hfind
        have huser : user.hasEmail citext email = true := by simp [User.hasEmail, hemail]
        exact congrArg some (Users.eq_of_email (List.mem_of_find?_eq_some hfind) hu hother huser)
  exact congrArg (Option.map User.asMember) hfound

theorem exists_handleAll (localdate : Int → Int) (now : Int) (hu : user ∈ db.users.rows)
    (hkind : user.kind = .professional) (targetIsActive : Invitation → Bool) {opened : List Invitation}
    (hopened : ∀ i ∈ opened, some i.email = user.email) {before : Organizations.Db}
    (husers : before.users = db.users.rows.map User.asMember) :
    ∃ after, opened.foldlM (fun (organizations : Organizations.Db) i =>
      organizations.handleInvitation citext localdate now user.asMember (targetIsActive i) i) before = some after := by
  induction opened generalizing before with
  | nil => exact ⟨before, rfl⟩
  | cons i opened ih =>
      have hprofessional : user.asMember.isProfessional = true := decide_eq_true hkind
      have hguest := userOfEmail_asMember hu (hopened i List.mem_cons_self).symm husers
      obtain ⟨next, hnext⟩ : ∃ next, before.handleInvitation citext localdate now user.asMember (targetIsActive i) i =
          some next := by
        simp only [Organizations.Db.handleInvitation, hguest, hprofessional, and_self, if_true]
        split
        · obtain ⟨joined, hjoined⟩ := exists_addOrActivateMembership localdate now i.organization before
            hprofessional
          exact ⟨_, congrArg (Option.map _) hjoined⟩
        · exact ⟨before, rfl⟩
      obtain ⟨after, hafter⟩ := ih (fun j hj => hopened j (List.mem_cons_of_mem i hj))
        ((KeepsOpen.handleInvitation hnext).users.trans husers)
      exact ⟨after, by rw [List.foldlM_cons, hnext]; exact hafter⟩

end

/-! ## The tables of a login -/

/-- The accounts are the same, and the invitations to other e-mails are as open as before. -/
structure KeepsOthers (email : Option String) (db db' : Db citext) : Prop where
  users : db'.users = db.users
  invitations : ∀ kind, ∀ i ∈ (db.organizations kind).invitations, some i.email ≠ email → i.acceptedAt = none →
    ∃ i' ∈ (db'.organizations kind).invitations, i'.id = i.id ∧ i'.email = i.email ∧ i'.acceptedAt = none

namespace KeepsOthers

variable {email : Option String} {db db' db'' : Db citext} {user : User}

theorem refl : KeepsOthers email db db := ⟨rfl, fun _ i hi _ hopen => ⟨i, hi, rfl, rfl, hopen⟩⟩

theorem trans (h : KeepsOthers email db db') (h' : KeepsOthers email db' db'') : KeepsOthers email db db'' := by
  refine ⟨h'.users.trans h.users, fun kind i hi hne hopen => ?_⟩
  obtain ⟨i', hi', hid, hemail, hopen'⟩ := h.invitations kind i hi hne hopen
  obtain ⟨i'', hi'', hid', hemail', hopen''⟩ := h'.invitations kind i' hi' (hemail ▸ hne) hopen'
  exact ⟨i'', hi'', hid'.trans hid, hemail'.trans hemail, hopen''⟩

theorem setTables {kind : OrganizationKind} {after : Organizations.Db} {ids : List Nat}
    (hkeeps : KeepsOpen ids (db.organizationsDb kind) after)
    (hids : ∀ i ∈ (db.organizations kind).invitations, i.id ∈ ids → some i.email = email)
    (h : db.setTables kind after = some db') : KeepsOthers email db db' := by
  unfold Db.setTables at h
  split at h
  · cases h
    refine ⟨rfl, fun other i hi hne hopen => ?_⟩
    by_cases hother : other = kind
    · subst hother
      obtain ⟨i', hi', hid, hemail, haccepted⟩ := hkeeps.invitations i hi fun hmem => hne (hids i hi hmem)
      exact ⟨i', by simpa using hi', hid, hemail, haccepted hopen⟩
    · exact ⟨i, by simpa only [hother, if_false] using hi, rfl, rfl, hopen⟩
  · cases h

theorem exists_setTables {kind : OrganizationKind} {after : Organizations.Db} {ids : List Nat}
    (hkeeps : KeepsOpen ids (db.organizationsDb kind) after) : ∃ db', db.setTables kind after = some db' :=
  ⟨_, dif_pos (hkeeps.primaryKeys ▸ (db.organizations kind).ids)⟩

theorem joinOrg {safir : String} (h : joinOrg env db user safir = some db') : KeepsOthers email db db' := by
  unfold OpenidConnect.joinOrg at h
  split at h
  · split at h
    · cases h
      exact refl
    · simp only at h
      split at h
      · cases h
        exact refl
      · obtain ⟨after, hafter, hset⟩ := Option.bind_eq_some_iff.mp h
        exact setTables (KeepsOpen.addOrActivateMembership hafter) (fun i _ hi => absurd hi List.not_mem_nil) hset
  · cases h
    exact refl

theorem mem_pendingInvitations {kind : OrganizationKind} {i : Invitation}
    (hi : i ∈ pendingInvitations env db kind user) :
    i ∈ (db.organizations kind).invitations ∧ some i.email = user.email := by
  have hmem := List.mem_filter.mp (mem_orderBy.mp hi)
  simp only [Bool.and_eq_true, decide_eq_true_eq] at hmem
  exact ⟨hmem.1, hmem.2.2⟩

theorem acceptPendingInvitations {kind : OrganizationKind}
    (h : acceptPendingInvitations env user db kind = some db') : KeepsOthers user.email db db' := by
  obtain ⟨after, hafter, hset⟩ := Option.bind_eq_some_iff.mp h
  refine setTables (KeepsOpen.handleAll hafter) (fun i hi hid => ?_) hset
  obtain ⟨j, hj, heq⟩ := List.mem_map.mp hid
  obtain ⟨hmem, hemail⟩ := mem_pendingInvitations hj
  have hsame : j = i := List.inj_on_of_nodup_map (db.organizations kind).ids hmem hi heq
  exact hsame ▸ hemail

theorem acceptAllPendingInvitations (h : acceptAllPendingInvitations env db user = some db') :
    KeepsOthers user.email db db' := by
  have hall : ∀ (kinds : List OrganizationKind) (db : Db citext),
      kinds.foldlM (OpenidConnect.acceptPendingInvitations env user) db = some db' →
        KeepsOthers user.email db db' := by
    intro kinds
    induction kinds with
    | nil =>
        intro db h
        cases h
        exact refl
    | cons kind kinds ih =>
        intro db h
        rw [List.foldlM_cons] at h
        obtain ⟨next, hnext, hrest⟩ := Option.bind_eq_some_iff.mp h
        exact (acceptPendingInvitations hnext).trans (ih next hrest)
  exact hall invitationModels db h

/-! ## A login does not fail -/

theorem exists_joinOrg (env : Environment) (db : Db citext) (user : User) (safir : String) :
    ∃ db', OpenidConnect.joinOrg env db user safir = some db' := by
  unfold OpenidConnect.joinOrg
  split
  · rename_i hkind
    split
    · exact ⟨db, rfl⟩
    · rename_i organization _
      simp only
      split
      · exact ⟨db, rfl⟩
      · have hprofessional : user.asMember.isProfessional = true := decide_eq_true hkind.1
        obtain ⟨after, hafter⟩ := exists_addOrActivateMembership env.localdate env.now organization
          (db.organizationsDb .prescriber) hprofessional
        obtain ⟨db', hset⟩ := exists_setTables (KeepsOpen.addOrActivateMembership hafter)
        exact ⟨db', by rw [hafter]; exact hset⟩
  · exact ⟨db, rfl⟩

theorem exists_acceptAllPendingInvitations (env : Environment) (hu : user ∈ db.users.rows) (hkind : user.kind = .professional) :
    ∃ db', OpenidConnect.acceptAllPendingInvitations env db user = some db' := by
  have hall : ∀ (kinds : List OrganizationKind) (db : Db citext), user ∈ db.users.rows →
      ∃ db', kinds.foldlM (OpenidConnect.acceptPendingInvitations env user) db = some db' := by
    intro kinds
    induction kinds with
    | nil => exact fun db _ => ⟨db, rfl⟩
    | cons kind kinds ih =>
        intro db hu
        have husers : (db.organizationsDb kind).users = db.users.rows.map User.asMember := rfl
        have hopened : ∀ i ∈ pendingInvitations env db kind user, some i.email = user.email :=
          fun i hi => (mem_pendingInvitations hi).2
        obtain ⟨after, hafter⟩ := exists_handleAll env.localdate env.now hu hkind (targetIsActive db kind) hopened husers
        obtain ⟨next, hset⟩ := exists_setTables (KeepsOpen.handleAll hafter)
        have hnext : OpenidConnect.acceptPendingInvitations env user db kind = some next := by
          rw [OpenidConnect.acceptPendingInvitations, hafter]
          exact hset
        obtain ⟨db', hdb'⟩ := ih next ((acceptPendingInvitations hnext).users ▸ hu)
        exact ⟨db', by rw [List.foldlM_cons, hnext]; exact hdb'⟩
  exact hall invitationModels db hu

end KeepsOthers

end Itou.OpenidConnect
