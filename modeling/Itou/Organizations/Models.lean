import Itou.Lib.KeyedTables
import Itou.Users

/-!
# Organizations, their members and their invitations

The memberships of the organizations of one kind, the invitations that these organizations sent, and the methods of
`OrganizationAbstract` that write both. An instant is a number of microseconds. Two things that the code does not
define are parameters: `localdate`, the local date of an instant, and `lower`, under which `citext` compares texts.
-/

namespace Itou.Organizations

open Itou.Lib

/-! ## Rows -/

/-- A row of `users.User`. The column `email` is a `citext`. -/
structure User where
  pk : Nat
  email : Option String
  kind : UserKind
  isActive : Bool
  deriving DecidableEq

def User.isProfessional (user : User) : Bool := user.kind = .professional

/-- A row of a child of `MembershipAbstract`. -/
structure Membership where
  pk : Nat
  user : Nat
  organization : Nat
  joinedAt : Int
  isAdmin : Bool
  isActive : Bool
  createdAt : Int
  updatedAt : Int
  updatedBy : Option Nat
  deriving DecidableEq

/-- `UniqueConstraint(fields=["user", "company"])`, and the like for the two other kinds. -/
def Membership.columns : Columns Membership (Nat × Nat) := ⟨pk, fun m => (m.user, m.organization)⟩

abbrev Memberships := KeyedTable Membership.columns

/-- `DEFAULT_VALIDITY_DAYS`. -/
def defaultValidityDays : Nat := 14

/-- A row of a child of `InvitationAbstract`. The column `email` is a `varchar`. -/
structure Invitation where
  id : Nat
  organization : Nat
  sender : Nat
  email : String
  validityDays : Nat
  createdAt : Int
  sentAt : Option Int
  acceptedAt : Option Int
  deriving DecidableEq

/-- What the methods read and write. -/
structure Db where
  users : List User
  memberships : Memberships
  invitations : List Invitation
  deriving DecidableEq

/-! ## Managers of the memberships -/

section Memberships

variable (db : Db) (organization : Nat)

/-- `user__is_active`. -/
def Db.isActiveUser (user : Nat) : Bool := db.users.any fun u => u.pk = user && u.isActive

/-- `self.memberships`, by way of `ActiveMembershipManager`. -/
def Db.activeMemberships : List Membership :=
  db.memberships.rows.filter fun m => m.organization = organization && (db.isActiveUser m.user && m.isActive)

/-- `active_admin_members`, as memberships. -/
def Db.activeAdminMemberships : List Membership := (db.activeMemberships organization).filter (·.isAdmin)

/-- `include_inactive.get(user=user, organization=self)`. -/
def Db.membership? (user : Nat) : Option Membership :=
  db.memberships.rows.find? fun m => m.user = user && m.organization = organization

end Memberships

/-! ## Validity of an invitation -/

/-- `relativedelta(days=1)`. -/
def day : Int := 86400000000

namespace Invitation

variable (invitation : Invitation)

def expirationDate (sentAt : Int) : Int := sentAt + invitation.validityDays * day

/-- `InvitationAbstract.can_be_accepted`, which reads `has_expired`. -/
def canBeAccepted (now : Int) : Bool :=
  match invitation.sentAt with
  | none => false
  | some sentAt => invitation.acceptedAt.isNone && !decide (invitation.expirationDate sentAt ≤ now)

/-- `InvitationQuerySet.valid_lookup`. -/
def validLookup (localdate : Int → Int) (now : Int) : Bool :=
  match invitation.sentAt with
  | none => false
  | some sentAt => localdate sentAt > localdate now - invitation.validityDays

/-- `InvitationQuerySet.pending`. -/
def pending (localdate : Int → Int) (now : Int) : Bool :=
  invitation.validLookup localdate now && invitation.acceptedAt.isNone

end Invitation

/-! ## Methods of an organization -/

section Methods

variable (localdate : Int → Int) (now : Int) (organization : Nat)

/-- One of the two queries of `expire_invitations`: `pending().filter(…).update(validity_days=0)`. -/
def Db.expire (db : Db) (p : Invitation → Bool) : Db :=
  { db with invitations := db.invitations.map fun i =>
      if i.organization = organization && i.pending localdate now && p i then { i with validityDays := 0 } else i }

/-- `expire_invitations`. -/
def Db.expireInvitations (db : Db) (user : User) : Db :=
  (db.expire localdate now organization fun i => some i.email = user.email).expire localdate now organization
    fun i => i.sender = user.pk

/-- `membership.save(update_fields=…)`, once `MembershipAbstract.clean` has let its user through. -/
def Db.saveMembership (db : Db) (user : User) (memberships : Option Memberships) : Option Db :=
  if user.isProfessional then memberships.map fun memberships => { db with memberships := memberships } else none

/-- `add_or_activate_membership`. -/
def Db.addOrActivateMembership (db : Db) (user : User) (forceAdmin : Option Bool) : Option Db :=
  let isOnlyActiveMember := (db.activeMemberships organization).isEmpty
  let shouldBeAdmin := forceAdmin.getD isOnlyActiveMember
  let saved := db.saveMembership user <|
    match db.membership? organization user.pk with
    | none => db.memberships.insert
        ⟨db.memberships.freshPk, user.pk, organization, now, shouldBeAdmin, true, now, now, none⟩
    | some membership => some <| db.memberships.modify (·.pk = membership.pk)
        (fun m => { m with isActive := true, isAdmin := shouldBeAdmin, joinedAt := now, updatedAt := now })
        fun _ => ⟨rfl, rfl⟩
  saved.map fun db => db.expireInvitations localdate now organization user

/-- `deactivate_membership`. Here `user` is `membership.user`. -/
def Db.deactivateMembership (db : Db) (membership : Membership) (user : User) (updatedBy : Nat) : Option Db :=
  let saved := db.saveMembership user <| some <| db.memberships.modify (·.pk = membership.pk)
    (fun m => { m with isActive := false, isAdmin := false, updatedBy := some updatedBy, updatedAt := now })
    fun _ => ⟨rfl, rfl⟩
  saved.map fun db => db.expireInvitations localdate now organization user

/-- `set_admin_role`. Here `user` is `membership.user`. -/
def Db.setAdminRole (db : Db) (membership : Membership) (user : User) (admin : Bool) (updatedBy : Nat) : Option Db :=
  db.saveMembership user <| some <| db.memberships.modify (·.pk = membership.pk)
    (fun m => { m with isAdmin := admin, updatedBy := some updatedBy, updatedAt := now }) fun _ => ⟨rfl, rfl⟩

end Methods

end Itou.Organizations
