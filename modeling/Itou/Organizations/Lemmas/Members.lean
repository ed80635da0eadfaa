import Itou.Organizations.Invitations

/-!
# What the methods of an organization do to its members
-/

namespace Itou.Organizations

open Itou.Lib

variable {localdate : Int → Int} {now : Int} {organization : Nat}

/-! ## Rows -/

theorem mem_activeMemberships {db : Db} {m : Membership} : m ∈ db.activeMemberships organization ↔
    m ∈ db.memberships.rows ∧ m.organization = organization ∧ db.isActiveUser m.user ∧ m.isActive := by
  simp [Db.activeMemberships]

theorem mem_activeAdminMemberships {db : Db} {m : Membership} : m ∈ db.activeAdminMemberships organization ↔
    m ∈ db.activeMemberships organization ∧ m.isAdmin := by
  simp [Db.activeAdminMemberships]

theorem Db.IsAdmin.isMember {db : Db} {user : Nat} (h : db.IsAdmin organization user) :
    db.IsMember organization user := by
  obtain ⟨m, hm, hu⟩ := h
  exact ⟨m, (mem_activeAdminMemberships.mp hm).1, hu⟩

theorem exists_isAdmin_iff {db : Db} :
    (∃ user, db.IsAdmin organization user) ↔ db.activeAdminMemberships organization ≠ [] := by
  constructor
  · rintro ⟨_, m, hm, _⟩
    exact List.ne_nil_of_mem hm
  · intro h
    obtain ⟨m, hm⟩ := List.exists_mem_of_ne_nil _ h
    exact ⟨m.user, m, hm, rfl⟩

theorem membership?_eq_some {db : Db} {user : Nat} {m : Membership} (h : db.membership? organization user = some m) :
    m ∈ db.memberships.rows ∧ m.user = user ∧ m.organization = organization :=
  ⟨List.mem_of_find?_eq_some h, by simpa using List.find?_some h⟩

theorem otherMember_eq_some {db : Db} {requester user : Nat} {membership : Membership} {account : User}
    (h : db.otherMember organization requester user = some (membership, account)) :
    db.isCurrentOrganizationAdmin organization requester ∧ requester ≠ user ∧
      membership ∈ db.activeMemberships organization ∧ membership.user = user ∧
      db.users.find? (·.pk = user) = some account := by
  simp only [Db.otherMember] at h
  split at h
  · rename_i hguard
    simp only [Bool.and_eq_true, decide_eq_true_eq] at hguard
    obtain ⟨m, hm, h⟩ := Option.bind_eq_some_iff.mp h
    obtain ⟨a, ha, h⟩ := Option.map_eq_some_iff.mp h
    cases h
    exact ⟨hguard.1, hguard.2, List.mem_of_find?_eq_some hm, by simpa using List.find?_some hm, ha⟩
  · cases h

theorem currentMembership_eq_some {db : Db} {requester : Nat} {m : Membership}
    (h : db.currentMembership organization requester = some m) :
    m ∈ db.activeMemberships organization ∧ m.user = requester := by
  obtain ⟨user, huser, h⟩ := Option.bind_eq_some_iff.mp h
  split at h
  · have hfound := List.find?_some h
    simp only [Bool.and_eq_true, decide_eq_true_eq] at hfound
    obtain ⟨⟨hmuser, horganization⟩, hactive⟩ := hfound
    have huserActive : db.isActiveUser m.user := by
      have hfound := List.find?_some huser
      exact List.any_eq_true.mpr ⟨user, List.mem_of_find?_eq_some huser, by simpa [hmuser] using hfound⟩
    exact ⟨mem_activeMemberships.mpr ⟨List.mem_of_find?_eq_some h, horganization, huserActive, hactive⟩, hmuser⟩
  · cases h

/-- The one who opens a view of the organization is a member. -/
theorem isMember_of_currentMembership {db : Db} {requester : Nat} {m : Membership}
    (h : db.currentMembership organization requester = some m) : db.IsMember organization requester :=
  ⟨m, currentMembership_eq_some h⟩

/-- The administrator that a view is opened by is an active one. -/
theorem isAdmin_of_isCurrentOrganizationAdmin {db : Db} {requester : Nat}
    (h : db.isCurrentOrganizationAdmin organization requester) : db.IsAdmin organization requester := by
  simp only [Db.isCurrentOrganizationAdmin, Option.any_eq_true] at h
  obtain ⟨m, hm, hadmin⟩ := h
  obtain ⟨hactive, huser⟩ := currentMembership_eq_some hm
  exact ⟨m, mem_activeAdminMemberships.mpr ⟨hactive, hadmin⟩, huser⟩

/-! ## One row is written -/

namespace Db.Writes

variable {user other : Nat} {db db' db'' : Db} {m : Membership}

theorem isActiveUser (h : db.Writes organization user db' m) : db'.isActiveUser other = db.isActiveUser other := by
  rw [Db.isActiveUser, Db.isActiveUser, h.users]

theorem eq_of_user (h : db.Writes organization user db' m) {n : Membership} (hn : n ∈ db'.memberships.rows)
    (huser : n.user = user) (horganization : n.organization = organization) : n = m :=
  KeyedTable.eq_of_key hn h.mem (Prod.ext (huser.trans h.user.symm) (horganization.trans h.organization.symm))

theorem mem_of_ne (h : db.Writes organization user db' m) {n : Membership} (hne : n.user ≠ user) :
    n ∈ db'.activeMemberships organization ↔ n ∈ db.activeMemberships organization := by
  rw [mem_activeMemberships, mem_activeMemberships, h.isActiveUser, h.others n fun hn => hne hn.1]

theorem isMember_of_ne (h : db.Writes organization user db' m) (hne : other ≠ user) :
    db'.IsMember organization other ↔ db.IsMember organization other := by
  constructor
  · rintro ⟨n, hn, rfl⟩
    exact ⟨n, (h.mem_of_ne hne).mp hn, rfl⟩
  · rintro ⟨n, hn, rfl⟩
    exact ⟨n, (h.mem_of_ne hne).mpr hn, rfl⟩

theorem isAdmin_of_ne (h : db.Writes organization user db' m) (hne : other ≠ user) :
    db'.IsAdmin organization other ↔ db.IsAdmin organization other := by
  constructor
  · rintro ⟨n, hn, rfl⟩
    obtain ⟨hn, hadmin⟩ := mem_activeAdminMemberships.mp hn
    exact ⟨n, mem_activeAdminMemberships.mpr ⟨(h.mem_of_ne hne).mp hn, hadmin⟩, rfl⟩
  · rintro ⟨n, hn, rfl⟩
    obtain ⟨hn, hadmin⟩ := mem_activeAdminMemberships.mp hn
    exact ⟨n, mem_activeAdminMemberships.mpr ⟨(h.mem_of_ne hne).mpr hn, hadmin⟩, rfl⟩

theorem isMember_self (h : db.Writes organization user db' m) :
    db'.IsMember organization user ↔ db.isActiveUser user ∧ m.isActive := by
  constructor
  · rintro ⟨n, hn, huser⟩
    obtain ⟨hrow, horganization, hactiveUser, hactive⟩ := mem_activeMemberships.mp hn
    rw [h.isActiveUser, huser] at hactiveUser
    exact ⟨hactiveUser, h.eq_of_user hrow huser horganization ▸ hactive⟩
  · rintro ⟨huser, hactive⟩
    refine ⟨m, mem_activeMemberships.mpr ⟨h.mem, h.organization, ?_, hactive⟩, h.user⟩
    rw [h.isActiveUser, h.user]
    exact huser

theorem isAdmin_self (h : db.Writes organization user db' m) :
    db'.IsAdmin organization user ↔ db.isActiveUser user ∧ m.isActive ∧ m.isAdmin := by
  constructor
  · rintro ⟨n, hn, huser⟩
    obtain ⟨hn, hadmin⟩ := mem_activeAdminMemberships.mp hn
    obtain ⟨hrow, horganization, hactiveUser, hactive⟩ := mem_activeMemberships.mp hn
    rw [h.isActiveUser, huser] at hactiveUser
    rw [h.eq_of_user hrow huser horganization] at hactive hadmin
    exact ⟨hactiveUser, hactive, hadmin⟩
  · rintro ⟨huser, hactive, hadmin⟩
    refine ⟨m, mem_activeAdminMemberships.mpr
      ⟨mem_activeMemberships.mpr ⟨h.mem, h.organization, ?_, hactive⟩, hadmin⟩, h.user⟩
    rw [h.isActiveUser, h.user]
    exact huser

end Db.Writes

/-! ## The methods -/

section Methods

variable {db db' : Db} {user : User} {membership : Membership}

theorem saveMembership_eq_some {memberships : Option Memberships}
    (h : db.saveMembership user memberships = some db') :
    ∃ rows, memberships = some rows ∧ db' = { db with memberships := rows } := by
  unfold Db.saveMembership at h
  split at h
  · obtain ⟨rows, hrows, rfl⟩ := Option.map_eq_some_iff.mp h
    exact ⟨rows, hrows, rfl⟩
  · cases h

/-- `UPDATE` of one membership. -/
theorem writes_modify (hmem : membership ∈ db.memberships.rows) {f : Membership → Membership}
    (hkeep : ∀ m, Membership.columns.pk (f m) = Membership.columns.pk m ∧
      Membership.columns.key (f m) = Membership.columns.key m) :
    db.Writes membership.organization membership.user
      { db with memberships := db.memberships.modify (·.pk = membership.pk) f hkeep } (f membership) where
  users := rfl
  others := by
    intro n hn
    rw [KeyedTable.mem_modify]
    constructor
    · rintro ⟨m, hm, hmn⟩
      split at hmn
      · rename_i hpk
        have heq : m = membership := KeyedTable.eq_of_pk hm hmem (of_decide_eq_true hpk)
        subst heq
        have hkey : ((f m).user, (f m).organization) = (m.user, m.organization) := (hkeep m).2
        rw [hmn, Prod.mk.injEq] at hkey
        exact absurd hkey hn
      · exact hmn ▸ hm
    · intro hrow
      refine ⟨n, hrow, if_neg fun hpk => hn ?_⟩
      have heq : n = membership := KeyedTable.eq_of_pk hrow hmem (of_decide_eq_true hpk)
      exact heq ▸ ⟨rfl, rfl⟩
  mem := by
    rw [KeyedTable.mem_modify]
    exact ⟨membership, hmem, if_pos (decide_eq_true rfl)⟩
  user := congrArg Prod.fst (hkeep membership).2
  organization := congrArg Prod.snd (hkeep membership).2

/-- A method ends with `expire_invitations`, which leaves the members alone. -/
theorem Db.Writes.expireInvitations {o u : Nat} {m : Membership} (h : db.Writes o u db' m) (user : User) :
    db.Writes o u (db'.expireInvitations localdate now organization user) m :=
  ⟨h.users, h.others, h.mem, h.user, h.organization⟩

theorem addOrActivateMembership_writes {forceAdmin : Option Bool}
    (h : db.addOrActivateMembership localdate now organization user forceAdmin = some db') :
    ∃ m, db.Writes organization user.pk db' m ∧ m.isActive ∧
      m.isAdmin = forceAdmin.getD (db.activeMemberships organization).isEmpty := by
  simp only [Db.addOrActivateMembership] at h
  obtain ⟨saved, hsaved, rfl⟩ := Option.map_eq_some_iff.mp h
  obtain ⟨rows, hrows, rfl⟩ := saveMembership_eq_some hsaved
  cases hmembership : db.membership? organization user.pk with
  | none =>
      simp only [hmembership] at hrows
      have hrows := KeyedTable.insert_eq_some.mp hrows
      have hwrites : db.Writes organization user.pk { db with memberships := rows } ⟨db.memberships.freshPk, user.pk,
          organization, now, forceAdmin.getD (db.activeMemberships organization).isEmpty, true, now, now, none⟩ := by
        refine ⟨rfl, fun n hn => ?_, ?_, rfl, rfl⟩
        · simp only [hrows, List.mem_append, List.mem_singleton, or_iff_left_iff_imp]
          rintro rfl
          exact absurd ⟨rfl, rfl⟩ hn
        · simp only [hrows, List.mem_append, List.mem_singleton]
          exact Or.inr trivial
      exact ⟨_, hwrites.expireInvitations user, rfl, rfl⟩
  | some membership =>
      simp only [hmembership, Option.some.injEq] at hrows
      obtain ⟨hmem, huser, horganization⟩ := membership?_eq_some hmembership
      subst hrows
      have hwrites := writes_modify hmem (f := fun m => { m with
        isActive := true, isAdmin := forceAdmin.getD (db.activeMemberships organization).isEmpty, joinedAt := now,
        updatedAt := now }) fun _ => ⟨rfl, rfl⟩
      rw [huser, horganization] at hwrites
      exact ⟨_, hwrites.expireInvitations user, rfl, rfl⟩

/-- The membership may be inactive: the support deactivates it as the views do. -/
theorem deactivateMembership_writes_row {updatedBy : Nat} (hrow : membership ∈ db.memberships.rows)
    (h : db.deactivateMembership localdate now organization membership user updatedBy = some db') :
    ∃ m, db.Writes membership.organization membership.user db' m ∧ m.isActive = false ∧ m.isAdmin = false := by
  simp only [Db.deactivateMembership] at h
  obtain ⟨saved, hsaved, rfl⟩ := Option.map_eq_some_iff.mp h
  obtain ⟨rows, hrows, rfl⟩ := saveMembership_eq_some hsaved
  cases hrows
  have hwrites := writes_modify hrow (f := fun m => { m with
    isActive := false, isAdmin := false, updatedBy := some updatedBy, updatedAt := now }) fun _ => ⟨rfl, rfl⟩
  exact ⟨_, hwrites.expireInvitations user, rfl, rfl⟩

theorem deactivateMembership_writes {updatedBy : Nat} (hmem : membership ∈ db.activeMemberships organization)
    (h : db.deactivateMembership localdate now organization membership user updatedBy = some db') :
    ∃ m, db.Writes organization membership.user db' m ∧ m.isActive = false ∧ m.isAdmin = false := by
  obtain ⟨hrow, horganization, -, -⟩ := mem_activeMemberships.mp hmem
  obtain ⟨m, hwrites, hm⟩ := deactivateMembership_writes_row hrow h
  exact ⟨m, horganization ▸ hwrites, hm⟩

theorem setAdminRole_writes_row {updatedBy : Nat} {admin : Bool} (hrow : membership ∈ db.memberships.rows)
    (h : db.setAdminRole now membership user admin updatedBy = some db') :
    ∃ m, db.Writes membership.organization membership.user db' m ∧ m.isActive = membership.isActive ∧
      m.isAdmin = admin := by
  obtain ⟨rows, hrows, rfl⟩ := saveMembership_eq_some h
  cases hrows
  have hwrites := writes_modify hrow (f := fun m => { m with
    isAdmin := admin, updatedBy := some updatedBy, updatedAt := now }) fun _ => ⟨rfl, rfl⟩
  exact ⟨_, hwrites, rfl, rfl⟩

theorem setAdminRole_writes {updatedBy : Nat} {admin : Bool} (hmem : membership ∈ db.activeMemberships organization)
    (h : db.setAdminRole now membership user admin updatedBy = some db') :
    ∃ m, db.Writes organization membership.user db' m ∧ m.isActive ∧ m.isAdmin = admin := by
  obtain ⟨hrow, horganization, -, hactive⟩ := mem_activeMemberships.mp hmem
  obtain ⟨m, hwrites, hstays, hadmin⟩ := setAdminRole_writes_row hrow h
  exact ⟨m, horganization ▸ hwrites, hstays.trans hactive, hadmin⟩

end Methods

end Itou.Organizations
