import Itou.Lib.Runs
import Itou.Organizations.Models

/-!
# Joining and leaving an organization

The views on the members of one organization and on its invitations, as the steps of a system with a clock. A view
that answers with an error takes no step.
-/

namespace Itou.Organizations

open Itou.Lib

/-- `MAX_PENDING_INVITATION`. -/
def maxPendingInvitation : Nat := 50

structure State where
  db : Db
  now : Int
  deriving DecidableEq

/-- What the views are given. `requester` is `request.user.pk`, and `companyIsActive` is the property `is_active` of the
company that invites, which is true of the two other kinds of organizations. -/
inductive Action where
  /-- `BaseInviteUserView.post`, with the primary key and the email of each form. -/
  | send (requester : Nat) (forms : List (Nat × String))
  /-- `InvitationAbstract.send`, on an invitation that was sent before. -/
  | resend (invitation : Nat)
  /-- `join`. -/
  | join (requester : Nat) (invitation : Nat) (companyIsActive : Bool)
  /-- `accept_all_pending_invitations`, at login. -/
  | acceptAll (requester : Nat) (companyIsActive : Bool)
  /-- `deactivate_org_member`. -/
  | deactivate (requester : Nat) (user : Nat)
  /-- `update_org_admin_role`. -/
  | setAdmin (requester : Nat) (user : Nat) (admin : Bool)
  /-- Time passes. -/
  | wait (duration : Nat)
  deriving DecidableEq

section Views

variable (lower : String → String) (localdate : Int → Int) (organization : Nat)

/-- `request.user`, who is logged in: `ModelBackend.get_user` finds an active account only. -/
def Db.requestUser (db : Db) (requester : Nat) : Option User := db.users.find? fun u => u.pk = requester && u.isActive

/-- The membership that makes the organization the current one. -/
def Db.currentMembership (db : Db) (requester : Nat) : Option Membership :=
  (db.requestUser requester).bind fun user =>
    if user.isProfessional then
      db.memberships.rows.find? fun m => m.user = requester && m.organization = organization && m.isActive
    else none

/-- `request.is_current_organization_admin`. -/
def Db.isCurrentOrganizationAdmin (db : Db) (requester : Nat) : Bool :=
  (db.currentMembership organization requester).any (·.isAdmin)

/-- `get_object_or_404(User, email=…)`, and `filter(email__iexact=…).first()`. -/
def Db.userOfEmail (db : Db) (email : String) : Option User :=
  db.users.find? fun u => u.email.any fun e => lower e = lower email

/-! ## Sending -/

/-- `_invited_user_exists_error` finds nothing to say. -/
def Db.canBeInvited (db : Db) (email : String) : Bool :=
  match db.userOfEmail lower email with
  | none => true
  | some user => user.isProfessional && (db.activeMemberships organization).all (·.user ≠ user.pk)

/-- The rows of the invitations of the organization that are pending. -/
def Db.pendingInvitations (db : Db) (now : Int) : List Invitation :=
  db.invitations.filter fun i => i.organization = organization && i.pending localdate now

/-- `BaseInviteUserView`, for a valid form set. -/
def Db.sendInvitations (db : Db) (now : Int) (requester : Nat) (forms : List (Nat × String)) : Option Db :=
  let invitationLeft := maxPendingInvitation - (db.pendingInvitations localdate organization now).length
  if (db.currentMembership organization requester).isSome ∧ forms.length ≤ invitationLeft ∧ forms ≠ [] ∧
      (forms.map Prod.snd).Nodup ∧ (forms.map Prod.fst).Nodup ∧
      (forms.all fun form => db.invitations.all fun i => i.id ≠ form.1) ∧
      (forms.all fun form => db.canBeInvited lower organization form.2) then
    some { db with invitations := db.invitations ++ forms.map fun form =>
      ⟨form.1, organization, requester, form.2, defaultValidityDays, now, some now, none⟩ }
  else none

/-- `send`. -/
def Db.resendInvitation (db : Db) (now : Int) (id : Nat) : Db :=
  { db with invitations := db.invitations.map fun i => if i.id = id then { i with sentAt := some now } else i }

/-! ## Accepting -/

/-- `accept`. -/
def Db.acceptInvitation (db : Db) (now : Int) (id : Nat) : Db :=
  { db with invitations := db.invitations.map fun i => if i.id = id then { i with acceptedAt := some now } else i }

/-- `handle_invitation`, for an invitation that was read before. It raises `PermissionDenied` when the guest is someone
else. -/
def Db.handleInvitation (db : Db) (now : Int) (requester : User) (companyIsActive : Bool) (invitation : Invitation) :
    Option Db :=
  match db.userOfEmail lower invitation.email with
  | none => none
  | some user =>
      -- `guest_can_join`
      if user.pk = requester.pk ∧ user.isProfessional then
        if invitation.canBeAccepted now && companyIsActive then
          (db.addOrActivateMembership localdate now invitation.organization user none).map fun db =>
            db.acceptInvitation now invitation.id
        else some db
      else none

/-- `join`. -/
def Db.join (db : Db) (now : Int) (requester : Nat) (id : Nat) (companyIsActive : Bool) : Option Db :=
  (db.requestUser requester).bind fun user =>
    (db.invitations.find? fun i => i.id = id && i.organization = organization).bind fun invitation =>
      db.handleInvitation lower localdate now user companyIsActive invitation

/-- `accept_all_pending_invitations`. The invitations are read before the first is handled. -/
def Db.acceptAllPendingInvitations (db : Db) (now : Int) (requester : Nat) (companyIsActive : Bool) : Option Db :=
  (db.requestUser requester).bind fun user =>
    ((db.pendingInvitations localdate organization now).filter fun i => some i.email = user.email).foldlM
      (fun db invitation => db.handleInvitation lower localdate now user companyIsActive invitation) db

/-! ## Members -/

/-- The member that a view of an administrator is about, and its account. -/
def Db.otherMember (db : Db) (requester user : Nat) : Option (Membership × User) :=
  if db.isCurrentOrganizationAdmin organization requester && requester ≠ user then
    ((db.activeMemberships organization).find? (·.user = user)).bind fun membership =>
      (db.users.find? (·.pk = user)).map fun account => (membership, account)
  else none

/-- `deactivate_org_member`. -/
def Db.deactivateOrgMember (db : Db) (now : Int) (requester user : Nat) : Option Db :=
  (db.otherMember organization requester user).bind fun (membership, account) =>
    db.deactivateMembership localdate now organization membership account requester

/-- `update_org_admin_role`. -/
def Db.updateOrgAdminRole (db : Db) (now : Int) (requester user : Nat) (admin : Bool) : Option Db :=
  (db.otherMember organization requester user).bind fun (membership, account) =>
    db.setAdminRole now membership account admin requester

/-! ## Steps -/

def State.step (s : State) : Action → Option State
  | .send requester forms =>
      (s.db.sendInvitations lower localdate organization s.now requester forms).map fun db => { s with db := db }
  | .resend invitation => some { s with db := s.db.resendInvitation s.now invitation }
  | .join requester invitation companyIsActive =>
      (s.db.join lower localdate organization s.now requester invitation companyIsActive).map fun db =>
        { s with db := db }
  | .acceptAll requester companyIsActive =>
      (s.db.acceptAllPendingInvitations lower localdate organization s.now requester companyIsActive).map fun db =>
        { s with db := db }
  | .deactivate requester user =>
      (s.db.deactivateOrgMember localdate organization s.now requester user).map fun db => { s with db := db }
  | .setAdmin requester user admin =>
      (s.db.updateOrgAdminRole organization s.now requester user admin).map fun db => { s with db := db }
  | .wait duration => some { s with now := s.now + duration }

end Views

/-! ## Members -/

/-- The user is an active member. -/
def Db.IsMember (organization : Nat) (db : Db) (user : Nat) : Prop :=
  ∃ m ∈ db.activeMemberships organization, m.user = user

/-- The user is an active administrator. -/
def Db.IsAdmin (organization : Nat) (db : Db) (user : Nat) : Prop :=
  ∃ m ∈ db.activeAdminMemberships organization, m.user = user

instance {organization : Nat} (db : Db) (user : Nat) : Decidable (db.IsMember organization user) :=
  inferInstanceAs (Decidable (∃ m ∈ db.activeMemberships organization, m.user = user))

instance {organization : Nat} (db : Db) (user : Nat) : Decidable (db.IsAdmin organization user) :=
  inferInstanceAs (Decidable (∃ m ∈ db.activeAdminMemberships organization, m.user = user))

/-- Only the membership of the user is written, and it is then `m`. -/
structure Db.Writes (organization user : Nat) (db db' : Db) (m : Membership) : Prop where
  users : db'.users = db.users
  others : ∀ n : Membership, ¬ (n.user = user ∧ n.organization = organization) →
    (n ∈ db'.memberships.rows ↔ n ∈ db.memberships.rows)
  mem : m ∈ db'.memberships.rows
  user : m.user = user
  organization : m.organization = organization

/-! ## Opened invitations -/

/-- The invitations that an action handles, in the state before it. -/
def State.opened (localdate : Int → Int) (organization : Nat) (s : State) : Action → List Invitation
  | .join _ invitation _ => (s.db.invitations.find? fun i => i.id = invitation && i.organization = organization).toList
  | .acceptAll requester _ => (s.db.pendingInvitations localdate organization s.now).filter fun i =>
      (s.db.requestUser requester).any fun user => some i.email = user.email
  | _ => []

/-- The one who joins. -/
def Action.joiner : Action → Option (Nat × Bool)
  | .join requester _ companyIsActive | .acceptAll requester companyIsActive => some (requester, companyIsActive)
  | _ => none

/-- The invitation is to the email of the user. -/
def Db.AddressedTo (lower : String → String) (user : Nat) (db : Db) (i : Invitation) : Prop :=
  ∃ u ∈ db.users, u.pk = user ∧ ∃ e ∈ u.email, lower e = lower i.email

/-- The invitation is to the user, or from the user. -/
def Db.Concerns (lower : String → String) (user : Nat) (db : Db) (i : Invitation) : Prop :=
  db.AddressedTo lower user i ∨ i.sender = user

/-- The invitation was not sent later. -/
def Invitation.SentBy (now : Int) (i : Invitation) : Prop := ∀ sentAt ∈ i.sentAt, sentAt ≤ now

/-- The invitation is among those that `expire_invitations` finds. -/
def Invitation.Found (localdate : Int → Int) (now : Int) (account : User) (i : Invitation) : Prop :=
  i.SentBy now ∧ i.pending localdate now ∧ (some i.email = account.email ∨ i.sender = account.pk)

/-- The queries of `expire_invitations` find every invitation of the user that can still be accepted. -/
def Db.Reached (lower : String → String) (localdate : Int → Int) (organization user : Nat) (now : Int) (db : Db) : Prop :=
  ∀ account, db.users.find? (·.pk = user) = some account → ∀ i ∈ db.invitations, i.organization = organization →
    db.Concerns lower user i → i.canBeAccepted now → i.Found localdate now account

/-- None of these invitations of the user can be accepted. -/
def State.Barred (lower : String → String) (organization : Nat) (ids : List Nat) (user : Nat) (s : State) : Prop :=
  ∀ i ∈ s.db.invitations, i.organization = organization → i.id ∈ ids → s.db.Concerns lower user i →
    ¬ i.canBeAccepted s.now

/-- None of these invitations of the user is sent again with days left to accept it. -/
def State.NotRevived (lower : String → String) (organization : Nat) (ids : List Nat) (user : Nat) (s : State)
    (action : Action) : Prop :=
  ∀ i ∈ s.db.invitations, action = .resend i.id → i.organization = organization → i.id ∈ ids →
    s.db.Concerns lower user i → i.validityDays = 0 ∨ i.acceptedAt.isSome

/-! ## New invitations -/

/-- A member invites the user, who is someone else. -/
def State.Invites (lower : String → String) (organization user : Nat) (s : State) : Action → Prop
  | .send requester forms => requester ≠ user ∧ s.db.IsMember organization requester ∧
      ∃ form ∈ forms, ∃ u ∈ s.db.users, u.pk = user ∧ ∃ e ∈ u.email, lower e = lower form.2
  | _ => False

end Itou.Organizations
