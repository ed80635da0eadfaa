import Itou.Organizations.Lemmas.Members
import Mathlib.Algebra.Order.Ring.Int

/-!
# What the steps do to the invitations

A step leaves an invitation that cannot be accepted as it is, unless it is sent again.

Which invitations of a user can still be accepted once `deactivate_membership` has run, and what the steps that follow
do to them.
-/

namespace Itou.Organizations

open Itou.Lib

variable {lower : String → String} {localdate : Int → Int} {now now' : Int} {organization : Nat}

/-! ## One invitation -/

namespace Invitation

variable {i i' i'' : Invitation}

theorem canBeAccepted_iff : i.canBeAccepted now ↔
    ∃ sentAt, i.sentAt = some sentAt ∧ i.acceptedAt = none ∧ now < i.expirationDate sentAt := by
  unfold canBeAccepted
  cases i.sentAt with
  | none => simp
  | some sentAt => simp

/-- The invitation is for the same person, from the same one, and no easier to accept. -/
structure Ages (now : Int) (i i' : Invitation) : Prop where
  id : i'.id = i.id
  organization : i'.organization = i.organization
  email : i'.email = i.email
  sender : i'.sender = i.sender
  canBeAccepted : i'.canBeAccepted now → i.canBeAccepted now

namespace Ages

theorem refl (i : Invitation) : i.Ages now i := ⟨rfl, rfl, rfl, rfl, fun h => h⟩

theorem trans (h : i.Ages now i') (h' : i'.Ages now i'') : i.Ages now i'' :=
  ⟨h'.id.trans h.id, h'.organization.trans h.organization, h'.email.trans h.email, h'.sender.trans h.sender,
    fun hi => h.canBeAccepted (h'.canBeAccepted hi)⟩

end Ages

theorem le_expirationDate (sentAt : Int) : sentAt ≤ i.expirationDate sentAt :=
  le_add_of_nonneg_right (mul_nonneg (Int.natCast_nonneg _) (by decide))

/-- The update of `expire_invitations`. -/
theorem ages_expired (i : Invitation) : i.Ages now { i with validityDays := 0 } := by
  refine ⟨rfl, rfl, rfl, rfl, fun h => ?_⟩
  obtain ⟨sentAt, hsent, haccepted, hlt⟩ := canBeAccepted_iff.mp h
  have heq : ({ i with validityDays := 0 } : Invitation).expirationDate sentAt = sentAt := by
    simp [expirationDate]
  rw [heq] at hlt
  exact canBeAccepted_iff.mpr ⟨sentAt, hsent, haccepted, hlt.trans_le (le_expirationDate sentAt)⟩

theorem ages_accepted (i : Invitation) : i.Ages now { i with acceptedAt := some now' } := by
  refine ⟨rfl, rfl, rfl, rfl, fun h => ?_⟩
  obtain ⟨_, _, haccepted, _⟩ := canBeAccepted_iff.mp h
  cases haccepted

/-- Time does not help. -/
theorem canBeAccepted_of_le (h : i.canBeAccepted now') (hle : now ≤ now') : i.canBeAccepted now := by
  obtain ⟨sentAt, hsent, haccepted, hlt⟩ := canBeAccepted_iff.mp h
  exact canBeAccepted_iff.mpr ⟨sentAt, hsent, haccepted, hle.trans_lt hlt⟩

/-- An invitation that was sent by now, once it has expired early. -/
theorem not_canBeAccepted_expired {sentAt : Int} (hsent : i.sentAt = some sentAt) (hle : sentAt ≤ now) :
    ¬ ({ i with validityDays := 0 } : Invitation).canBeAccepted now := by
  intro h
  obtain ⟨sentAt', hsent', _, hlt⟩ := canBeAccepted_iff.mp h
  rw [hsent, Option.some.injEq] at hsent'
  subst hsent'
  simp only [expirationDate, Nat.cast_zero, zero_mul, add_zero] at hlt
  exact absurd hle (not_le.mpr hlt)

end Invitation

/-! ## The invitations of a database -/

/-- The users are the same, and each invitation has become one that is no easier to accept. -/
def Db.Quiet (now : Int) (db db' : Db) : Prop :=
  db'.users = db.users ∧ ∃ f, db'.invitations = db.invitations.map f ∧ ∀ i : Invitation, i.Ages now (f i)

namespace Db.Quiet

variable {db db' db'' : Db}

theorem refl (db : Db) : db.Quiet now db := ⟨rfl, id, by simp, Invitation.Ages.refl⟩

theorem trans (h : db.Quiet now db') (h' : db'.Quiet now db'') : db.Quiet now db'' := by
  obtain ⟨husers, f, hf, hages⟩ := h
  obtain ⟨husers', g, hg, hages'⟩ := h'
  refine ⟨husers'.trans husers, g ∘ f, ?_, fun i => (hages i).trans (hages' (f i))⟩
  rw [hg, hf, List.map_map]

/-- Where an invitation comes from. -/
theorem exists_of_mem (h : db.Quiet now db') {i' : Invitation} (hi' : i' ∈ db'.invitations) :
    ∃ i ∈ db.invitations, i.Ages now i' := by
  obtain ⟨-, f, hf, hages⟩ := h
  rw [hf] at hi'
  obtain ⟨i, hi, rfl⟩ := List.mem_map.mp hi'
  exact ⟨i, hi, hages i⟩

/-- Where an invitation goes. -/
theorem exists_of_mem_left (h : db.Quiet now db') {i : Invitation} (hi : i ∈ db.invitations) :
    ∃ i' ∈ db'.invitations, i.Ages now i' := by
  obtain ⟨-, f, hf, hages⟩ := h
  exact ⟨f i, hf ▸ List.mem_map_of_mem hi, hages i⟩

theorem expire (db : Db) (p : Invitation → Bool) : db.Quiet now (db.expire localdate now organization p) := by
  refine ⟨rfl, _, rfl, fun i => ?_⟩
  split
  · exact i.ages_expired
  · exact .refl i

theorem expireInvitations (db : Db) (user : User) :
    db.Quiet now (db.expireInvitations localdate now organization user) :=
  (expire db _).trans (expire _ _)

theorem acceptInvitation (db : Db) (id : Nat) : db.Quiet now (db.acceptInvitation now id) := by
  refine ⟨rfl, _, rfl, fun i => ?_⟩
  split
  · exact i.ages_accepted
  · exact .refl i

theorem addOrActivateMembership {user : User} {forceAdmin : Option Bool}
    (h : db.addOrActivateMembership localdate now organization user forceAdmin = some db') : db.Quiet now db' := by
  simp only [Db.addOrActivateMembership] at h
  obtain ⟨saved, hsaved, rfl⟩ := Option.map_eq_some_iff.mp h
  obtain ⟨rows, -, rfl⟩ := saveMembership_eq_some hsaved
  exact expireInvitations { db with memberships := rows } user

theorem setAdminRole {membership : Membership} {user : User} {admin : Bool} {updatedBy : Nat}
    (h : db.setAdminRole now membership user admin updatedBy = some db') : db.Quiet now db' := by
  obtain ⟨rows, -, rfl⟩ := saveMembership_eq_some h
  exact ⟨rfl, id, by simp, Invitation.Ages.refl⟩

end Db.Quiet

/-! ## Handling an invitation -/

section Handle

variable {db db' : Db} {requester : User} {companyIsActive : Bool} {invitation : Invitation}

/-- An invitation that is handled is accepted, or nothing happens. -/
theorem handleInvitation_eq_some
    (h : db.handleInvitation lower localdate now requester companyIsActive invitation = some db') :
    (∃ user, db.userOfEmail lower invitation.email = some user ∧ user.pk = requester.pk) ∧
      ((invitation.canBeAccepted now && companyIsActive) = false ∧ db' = db ∨
        (invitation.canBeAccepted now && companyIsActive) = true ∧
          db.Quiet now db' ∧ ∃ m, db.Writes invitation.organization requester.pk db' m ∧ m.isActive ∧
            m.isAdmin = (db.activeMemberships invitation.organization).isEmpty) := by
  unfold Db.handleInvitation at h
  split at h
  · cases h
  · rename_i user huser
    split at h
    · rename_i hguest
      refine ⟨⟨user, huser, hguest.1⟩, ?_⟩
      split at h
      · rename_i haccept
        obtain ⟨joined, hjoined, rfl⟩ := Option.map_eq_some_iff.mp h
        obtain ⟨m, hwrites, hactive, hadmin⟩ := addOrActivateMembership_writes hjoined
        rw [hguest.1] at hwrites
        exact Or.inr ⟨haccept, (Db.Quiet.addOrActivateMembership hjoined).trans (.acceptInvitation joined _),
          m, ⟨hwrites.users, hwrites.others, hwrites.mem, hwrites.user, hwrites.organization⟩, hactive, hadmin⟩
      · rename_i haccept
        cases h
        exact Or.inl ⟨Bool.eq_false_of_not_eq_true haccept, rfl⟩
    · cases h

/-- Invitations that are handled one after the other. -/
theorem Db.Quiet.handleAll {opened : List Invitation} {db : Db}
    (h : opened.foldlM (fun db i => db.handleInvitation lower localdate now requester companyIsActive i) db = some db') :
    db.Quiet now db' := by
  induction opened generalizing db with
  | nil =>
      cases h
      exact .refl db'
  | cons i opened ih =>
      rw [List.foldlM_cons] at h
      obtain ⟨next, hnext, hrest⟩ := Option.bind_eq_some_iff.mp h
      rcases (handleInvitation_eq_some hnext).2 with ⟨-, rfl⟩ | ⟨-, hquiet, -⟩
      · exact ih hrest
      · exact hquiet.trans (ih hrest)

theorem organization_of_mem_opened {s : State} {action : Action} {i : Invitation}
    (hi : i ∈ s.opened localdate organization action) : i ∈ s.db.invitations ∧ i.organization = organization := by
  cases action with
  | join requester invitation companyIsActive =>
      have hfind := Option.mem_toList.mp hi
      exact ⟨List.mem_of_find?_eq_some hfind, by have := List.find?_some hfind; simp_all⟩
  | acceptAll requester companyIsActive =>
      simp only [State.opened, Db.pendingInvitations, List.mem_filter, Bool.and_eq_true, decide_eq_true_eq] at hi
      exact ⟨hi.1.1, hi.1.2.1⟩
  | send | resend | deactivate | setAdmin | wait => cases hi

/-- The two ways to join handle invitations one after the other. -/
theorem step_joiner {s s' : State} {action : Action} {pk : Nat} {companyIsActive : Bool}
    (hjoiner : action.joiner = some (pk, companyIsActive))
    (h : s.step lower localdate organization action = some s') :
    ∃ requester, s.db.requestUser pk = some requester ∧ s'.now = s.now ∧
      (s.opened localdate organization action).foldlM
        (fun db i => db.handleInvitation lower localdate s.now requester companyIsActive i) s.db = some s'.db := by
  cases action with
  | join pk' invitation companyIsActive' =>
      cases hjoiner
      obtain ⟨db', hdb, rfl⟩ := Option.map_eq_some_iff.mp h
      obtain ⟨requester, hrequester, hdb⟩ := Option.bind_eq_some_iff.mp hdb
      obtain ⟨i, hi, hdb⟩ := Option.bind_eq_some_iff.mp hdb
      refine ⟨requester, hrequester, rfl, ?_⟩
      simp only [State.opened, hi, Option.toList_some, List.foldlM_cons, List.foldlM_nil, hdb]
      rfl
  | acceptAll pk' companyIsActive' =>
      cases hjoiner
      obtain ⟨db', hdb, rfl⟩ := Option.map_eq_some_iff.mp h
      obtain ⟨requester, hrequester, hdb⟩ := Option.bind_eq_some_iff.mp hdb
      refine ⟨requester, hrequester, rfl, ?_⟩
      simpa only [State.opened, hrequester, Option.any_some] using hdb
  | send | resend | deactivate | setAdmin | wait => cases hjoiner

theorem requestUser_eq_some {pk : Nat} {user : User} (h : db.requestUser pk = some user) :
    user.pk = pk ∧ db.isActiveUser pk := by
  have hfound := List.find?_some h
  simp only [Bool.and_eq_true, decide_eq_true_eq] at hfound
  exact ⟨hfound.1, List.any_eq_true.mpr ⟨user, List.mem_of_find?_eq_some h, by simp [hfound]⟩⟩

end Handle

variable {user : Nat}

/-! ## The invitations of a user -/

theorem Invitation.Ages.concerns {db db' : Db} {i i' : Invitation} (h : i.Ages now i') (husers : db'.users = db.users) :
    db'.Concerns lower user i' ↔ db.Concerns lower user i := by
  unfold Db.Concerns Db.AddressedTo
  rw [husers, h.email, h.sender]

/-! ## `expire_invitations` -/

/-- The row that one of the two queries leaves of an invitation. -/
def Invitation.expiredIf (i : Invitation) (c : Bool) : Invitation := if c then { i with validityDays := 0 } else i

theorem Invitation.ages_expiredIf (i : Invitation) (c : Bool) : i.Ages now (i.expiredIf c) := by
  cases c with
  | false => exact .refl i
  | true => exact i.ages_expired

theorem Invitation.sentBy_expiredIf {i : Invitation} {c : Bool} : (i.expiredIf c).SentBy now ↔ i.SentBy now := by
  cases c <;> exact Iff.rfl

theorem Invitation.canBeAccepted_expiredIf {i : Invitation} {c : Bool} :
    (i.expiredIf c).canBeAccepted now ↔ i.canBeAccepted now ∧ ¬ (c = true ∧ i.SentBy now) := by
  cases c with
  | false => simp [expiredIf]
  | true =>
      simp only [expiredIf, if_true, SentBy, true_and]
      constructor
      · intro h
        refine ⟨i.ages_expired.canBeAccepted h, fun hsent => ?_⟩
        obtain ⟨sentAt, hsentAt, -, -⟩ := canBeAccepted_iff.mp h
        exact not_canBeAccepted_expired hsentAt (hsent sentAt hsentAt) h
      · rintro ⟨h, hsent⟩
        obtain ⟨sentAt, hsentAt, haccepted, -⟩ := canBeAccepted_iff.mp h
        refine canBeAccepted_iff.mpr ⟨sentAt, hsentAt, haccepted, ?_⟩
        by_contra hle
        refine hsent fun t ht => ?_
        rw [hsentAt, Option.mem_some_iff] at ht
        simpa [expirationDate, ← ht] using hle

/-- What `expire_invitations` leaves. -/
theorem expireInvitations_eq_map (db : Db) (account : User) : ∃ f : Invitation → Invitation,
    (db.expireInvitations localdate now organization account).invitations = db.invitations.map f ∧
      ∀ i, i.Ages now (f i) ∧ (i.organization = organization →
        ((f i).canBeAccepted now ↔ i.canBeAccepted now ∧ ¬ i.Found localdate now account)) := by
  let received (i : Invitation) : Bool :=
    i.organization = organization && i.pending localdate now && some i.email = account.email
  let sent (i : Invitation) : Bool :=
    i.organization = organization && i.pending localdate now && i.sender = account.pk
  refine ⟨fun i => (i.expiredIf (received i)).expiredIf (sent (i.expiredIf (received i))), List.map_map, fun i =>
    ⟨(i.ages_expiredIf _).trans (Invitation.ages_expiredIf _ _), fun horganization => ?_⟩⟩
  rw [Invitation.canBeAccepted_expiredIf, Invitation.canBeAccepted_expiredIf, Invitation.sentBy_expiredIf]
  by_cases hsent : i.SentBy now
  · cases hreceived : received i with
    | true =>
        have h : (i.organization = organization ∧ i.pending localdate now) ∧ some i.email = account.email := by
          simpa only [received, Bool.and_eq_true, decide_eq_true_eq] using hreceived
        exact ⟨fun hboth => absurd ⟨rfl, hsent⟩ hboth.1.2, fun hboth => absurd ⟨hsent, h.1.2, Or.inl h.2⟩ hboth.2⟩
    | false =>
        have hi : i.expiredIf false = i := rfl
        have hemail : i.pending localdate now → some i.email ≠ account.email := by
          intro hpending hemail
          simp [received, horganization, hpending, hemail] at hreceived
        simp only [sent, hi, horganization, decide_true, Bool.true_and, Bool.and_eq_true, decide_eq_true_eq,
          Bool.false_eq_true, not_false_iff, and_true, hsent, Invitation.Found]
        constructor
        · rintro ⟨h, hsender⟩
          exact ⟨h, fun hboth => hboth.2.2.elim (hemail hboth.2.1) fun hs => hsender ⟨hboth.2.1, hs⟩⟩
        · rintro ⟨h, hboth⟩
          exact ⟨h, fun hs => hboth ⟨trivial, hs.1, Or.inr hs.2⟩⟩
  · simp [hsent, Invitation.Found]

/-! ## Steps -/

variable {s s' : State} {ids : List Nat}

/-- A deactivation. -/
theorem step_deactivate {requester : Nat}
    (h : s.step lower localdate organization (.deactivate requester user) = some s') :
    s'.now = s.now ∧ s'.db.users = s.db.users ∧ ¬ s'.db.IsMember organization user ∧
      ∃ account, s.db.users.find? (·.pk = user) = some account ∧ ∃ f : Invitation → Invitation,
        s'.db.invitations = s.db.invitations.map f ∧ ∀ i, i.Ages s.now (f i) ∧ (i.organization = organization →
          ((f i).canBeAccepted s.now ↔ i.canBeAccepted s.now ∧ ¬ i.Found localdate s.now account)) := by
  obtain ⟨db', hdb, rfl⟩ := Option.map_eq_some_iff.mp h
  obtain ⟨⟨membership, account⟩, hother, hdb⟩ := Option.bind_eq_some_iff.mp hdb
  obtain ⟨-, -, hmem, huser, haccount⟩ := otherMember_eq_some hother
  obtain ⟨m, hwrites, hinactive, -⟩ := deactivateMembership_writes hmem hdb
  rw [huser] at hwrites
  simp only [Db.deactivateMembership] at hdb
  obtain ⟨saved, hsaved, rfl⟩ := Option.map_eq_some_iff.mp hdb
  obtain ⟨rows, -, rfl⟩ := saveMembership_eq_some hsaved
  refine ⟨rfl, rfl, fun hmember => ?_, account, haccount, expireInvitations_eq_map { s.db with memberships := rows } account⟩
  have hactive := (hwrites.isMember_self.mp hmember).2
  rw [hinactive] at hactive
  cases hactive

/-- The other steps, those that send an invitation apart. -/
theorem step_quiet {action : Action} (hsend : ∀ requester forms, action ≠ .send requester forms)
    (hresend : ∀ id, action ≠ .resend id) (h : s.step lower localdate organization action = some s') :
    s.db.Quiet s.now s'.db ∧ s.now ≤ s'.now := by
  have hjoin : ∀ pk companyIsActive, action.joiner = some (pk, companyIsActive) →
      s.db.Quiet s.now s'.db ∧ s.now ≤ s'.now := by
    intro pk companyIsActive hjoiner
    obtain ⟨requester, -, hnow, hfold⟩ := step_joiner hjoiner h
    exact ⟨.handleAll hfold, hnow.ge⟩
  cases action with
  | send requester forms => exact absurd rfl (hsend requester forms)
  | resend id => exact absurd rfl (hresend id)
  | join pk invitation companyIsActive => exact hjoin pk companyIsActive rfl
  | acceptAll pk companyIsActive => exact hjoin pk companyIsActive rfl
  | deactivate requester user =>
      obtain ⟨hnow, husers, -, account, -, f, hf, hages⟩ := step_deactivate h
      exact ⟨⟨husers, f, hf, fun i => (hages i).1⟩, hnow.ge⟩
  | setAdmin requester user admin =>
      obtain ⟨db', hdb, rfl⟩ := Option.map_eq_some_iff.mp h
      obtain ⟨⟨membership, account⟩, -, hdb⟩ := Option.bind_eq_some_iff.mp hdb
      exact ⟨Db.Quiet.setAdminRole hdb, le_rfl⟩
  | wait duration =>
      cases h
      exact ⟨.refl s.db, le_add_of_nonneg_right (Int.natCast_nonneg duration)⟩

/-- A form set that is sent. -/
theorem step_send {requester : Nat} {forms : List (Nat × String)}
    (h : s.step lower localdate organization (.send requester forms) = some s') :
    s'.now = s.now ∧ s'.db.users = s.db.users ∧ s'.db.memberships = s.db.memberships ∧
      s.db.IsMember organization requester ∧ (∀ i ∈ s.db.invitations, i ∈ s'.db.invitations) ∧
      ∀ i ∈ s'.db.invitations, i ∈ s.db.invitations ∨
        (∀ j ∈ s.db.invitations, j.id ≠ i.id) ∧ i.sender = requester ∧ ∃ form ∈ forms, i.email = form.2 := by
  obtain ⟨db', hdb, rfl⟩ := Option.map_eq_some_iff.mp h
  simp only [Db.sendInvitations] at hdb
  split at hdb
  · rename_i hvalid
    obtain ⟨hmember, -, -, -, -, hids, -⟩ := hvalid
    cases hdb
    refine ⟨rfl, rfl, rfl, ?_, fun i hi => List.mem_append_left _ hi, fun i hi => ?_⟩
    · obtain ⟨m, hm⟩ := Option.isSome_iff_exists.mp hmember
      exact isMember_of_currentMembership hm
    · rcases List.mem_append.mp hi with hi | hi
      · exact Or.inl hi
      · obtain ⟨form, hform, rfl⟩ := List.mem_map.mp hi
        simp only [List.all_eq_true, decide_eq_true_eq] at hids
        exact Or.inr ⟨hids form hform, rfl, form, hform, rfl⟩
  · cases hdb

end Itou.Organizations
