import Itou.Organizations.Invitations

/-!
# Accounts and their identity providers

The accounts as a provider can create or update them, with the constraints of their table. `citext` is the fold under
which the database compares e-mails.
-/

namespace Itou.OpenidConnect

open Itou.Organizations (Membership Memberships Invitation)

/-! ## Choices -/

/-- `IdentityProvider`. -/
inductive IdentityProvider where
  | django
  | franceConnect
  | proConnect
  | ftConnect
  deriving DecidableEq

def IdentityProvider.value : IdentityProvider → String
  | .django => "DJANGO"
  | .franceConnect => "FC"
  | .proConnect => "PC"
  | .ftConnect => "FTC"

/-- `IDENTITY_PROVIDER_SUPPORTED_USER_KIND`. -/
def IdentityProvider.supportedUserKinds : IdentityProvider → List UserKind
  | .django => [.jobSeeker, .professional, .itouStaff]
  | .franceConnect => [.jobSeeker]
  | .ftConnect => [.jobSeeker]
  | .proConnect => [.professional]

/-- `IdentityCertificationAuthorities`. -/
inductive IdentityCertificationAuthorities where
  | apiFtRechercheIndividuCertifie
  | apiParticulier
  | apiFtRechercherUsager
  deriving DecidableEq

/-- The fields that `readonly_pii_fields` can list. -/
inductive PiiField where
  | firstName
  | lastName
  | title
  | birthdate
  | birthCountry
  | birthPlace
  | poleEmploiId
  deriving DecidableEq

/-! ## Profiles -/

/-- A row of `users_jobseekerprofile`, with the certifiers of its identity certifications. -/
structure JobSeekerProfile where
  birthdate : Option Int := none
  birthCountry : Option Nat := none
  birthPlace : Option Nat := none
  poleEmploiId : String := ""
  nir : String := ""
  lackOfNirReason : String := ""
  peObfuscatedNir : Option String := none
  peLastCertificationAttemptAt : Option Int := none
  ftGpsId : Option String := none
  identityCertifications : List IdentityCertificationAuthorities := []
  deriving DecidableEq

namespace JobSeekerProfile

/-- `Country.FRANCE_ID`. -/
def franceId : Nat := 91

/-- `USER_REQUIRED_FIELDS` and `JOBSEEKER_PROFILE_REQUIRED_FIELDS` of API Particulier. -/
def requiredFields : List PiiField := [.firstName, .lastName, .title, .birthdate, .birthCountry, .birthPlace]

/-- `readonly_pii_fields`. -/
def readonlyPiiFields (profile : JobSeekerProfile) : List PiiField :=
  if .apiParticulier ∈ profile.identityCertifications then
    let blocked :=
      if profile.birthCountry.isNone || (profile.birthCountry = some franceId && profile.birthPlace.isNone) then
        requiredFields.filter fun field => field ≠ .birthCountry && field ≠ .birthPlace
      else requiredFields
    if profile.poleEmploiId = "" then blocked else blocked ++ [.poleEmploiId]
  else []

/-- What a save drops when it detects a new identity. -/
def resetCertification (profile : JobSeekerProfile) : JobSeekerProfile :=
  { profile with
    peObfuscatedNir := none
    peLastCertificationAttemptAt := none
    ftGpsId := none
    identityCertifications := profile.identityCertifications.filter (· ≠ .apiFtRechercheIndividuCertifie) }

/-- `JobSeekerProfile.save`, over the row that was read. -/
def save (old new : JobSeekerProfile) : JobSeekerProfile :=
  if new.birthdate ≠ old.birthdate || new.nir ≠ old.nir then new.resetCertification else new

end JobSeekerProfile

/-! ## Accounts -/

/-- The fields of a user that a provider asserts, apart from its kind. -/
inductive UserField where
  | email
  | firstName
  | lastName
  | username
  | identityProvider
  | title
  deriving DecidableEq

/-- An entry of `external_data_source_history`. -/
structure HistoryEntry where
  fieldName : UserField
  source : IdentityProvider
  createdAt : Int
  value : String
  deriving DecidableEq

/-- A row of `users_user`, with its profile. -/
structure User where
  pk : Nat
  username : String
  email : Option String
  firstName : String
  lastName : String
  title : String
  kind : UserKind
  identityProvider : IdentityProvider
  isActive : Bool
  isStaff : Bool
  allowNextSsoSubUpdate : Bool
  externalDataSourceHistory : List HistoryEntry
  jobseekerProfile : Option JobSeekerProfile
  deriving DecidableEq

namespace User

variable (citext lower : String → String) (u v : User)

/-- `readonly_pii_fields`, of a job seeker. -/
def readonlyPiiFields : List PiiField :=
  if u.kind = .jobSeeker then u.jobseekerProfile.elim [] JobSeekerProfile.readonlyPiiFields else []

/-- `update_external_data_source_history_field`. -/
def updateHistoryField (now : Int) (provider : IdentityProvider) (history : List HistoryEntry)
    (assertion : UserField × String) : List HistoryEntry :=
  let current := ((history.filter fun entry => entry.fieldName = assertion.1).getLast?).map HistoryEntry.value
  if current = some assertion.2 then history
  else if (assertion.1 = .lastName || assertion.1 = .firstName) &&
      current.any fun value => value ≠ "" && lower value = lower assertion.2 then history
  else history ++ [⟨assertion.1, provider, now, assertion.2⟩]

/-- `identity_provider_kind`. -/
def identityProviderKind : Bool :=
  match u.identityProvider with
  | .django => true
  | .franceConnect => u.kind = .jobSeeker
  | .ftConnect => u.kind = .jobSeeker
  | .proConnect => u.kind = .professional

/-- `staff_and_superusers`. -/
def staffAndSuperusers : Bool := u.isStaff == decide (u.kind = .itouStaff)

/-- The unique columns tell two rows apart. -/
structure Distinct : Prop where
  pk : u.pk ≠ v.pk
  username : u.username ≠ v.username
  email : ∀ e ∈ u.email, ∀ e' ∈ v.email, citext e ≠ citext e'
  nir : ∀ p ∈ u.jobseekerProfile, ∀ p' ∈ v.jobseekerProfile, p.nir ≠ "" → p.nir ≠ p'.nir

instance : Decidable (u.Distinct citext v) :=
  decidable_of_iff (u.pk ≠ v.pk ∧ u.username ≠ v.username ∧
      (∀ e ∈ u.email, ∀ e' ∈ v.email, citext e ≠ citext e') ∧
      ∀ p ∈ u.jobseekerProfile, ∀ p' ∈ v.jobseekerProfile, p.nir ≠ "" → p.nir ≠ p'.nir)
    ⟨fun h => ⟨h.1, h.2.1, h.2.2.1, h.2.2.2⟩, fun h => ⟨h.pk, h.username, h.email, h.nir⟩⟩

/-- The checks on one row. -/
def Checked : Prop := u.identityProviderKind = true ∧ u.staffAndSuperusers = true

instance : Decidable u.Checked := inferInstanceAs (Decidable (_ ∧ _))

/-- The e-mail of the account, without case. -/
def hasEmail (email : String) : Bool := u.email.any fun e => citext e = citext email

/-- What the organizations read of the account. -/
def asMember : Organizations.User := ⟨u.pk, u.email, u.kind, u.isActive⟩

end User

/-! ## Tables -/

/-- The table of the accounts. Its constraints hold. -/
structure Users (citext : String → String) where
  rows : List User
  distinct : rows.Pairwise (User.Distinct citext)
  checked : ∀ u ∈ rows, u.Checked

namespace Users

variable {citext : String → String}

/-- The table with these rows, when the constraints allow it. -/
def ofRows (rows : List User) : Option (Users citext) :=
  if h : rows.Pairwise (User.Distinct citext) ∧ ∀ u ∈ rows, u.Checked then some ⟨rows, h.1, h.2⟩ else none

variable (users : Users citext)

def freshPk : Nat := (users.rows.map User.pk).foldr max 0 + 1

/-- `INSERT`. -/
def insert (u : User) : Option (Users citext) := ofRows (users.rows ++ [u])

/-- `UPDATE` of the row of the account. -/
def update (u : User) : Option (Users citext) := ofRows (users.rows.map fun v => if v.pk = u.pk then u else v)

end Users

/-- The three kinds of organizations that invite. -/
inductive OrganizationKind where
  | prescriber
  | employer
  | laborInspector
  deriving DecidableEq

/-- The memberships and the invitations of the organizations of a kind. -/
structure Tables where
  memberships : Memberships
  invitations : List Invitation
  ids : (invitations.map Invitation.id).Nodup

/-- The database, with the prescriber organizations that have a SAFIR code, and the active companies. -/
structure Db (citext : String → String) where
  users : Users citext
  organizations : OrganizationKind → Tables
  safirCodes : List (String × Nat)
  activeCompanies : List Nat

namespace Db

variable {citext : String → String} (db : Db citext)

/-- What the methods of the organizations of a kind read and write. -/
def organizationsDb (kind : OrganizationKind) : Organizations.Db where
  users := db.users.rows.map User.asMember
  memberships := (db.organizations kind).memberships
  invitations := (db.organizations kind).invitations

/-- The database with the tables of a kind of organizations. -/
def setTables (kind : OrganizationKind) (after : Organizations.Db) : Option (Db citext) :=
  if h : (after.invitations.map Invitation.id).Nodup then
    some { db with
      organizations := fun other =>
        if other = kind then ⟨after.memberships, after.invitations, h⟩ else db.organizations other }
  else none

end Db

end Itou.OpenidConnect
