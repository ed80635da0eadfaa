import Itou.Lib.Queries
import Itou.OpenidConnect.Models

/-!
# Login through a provider

`create_or_update_user`, and the callbacks of ProConnect and of FranceConnect once the tokens are checked. A request
that raises is rolled back.

What a callback may do to the accounts, the invitations and the session, and the condition under which that of
ProConnect does no more.
-/

namespace Itou.OpenidConnect

open Itou.Lib (orderBy)
open Itou.Organizations (Invitation)

/-- What Python and Django do with texts and instants. -/
structure Environment where
  lower : String → String
  normalizeEmail : String → String
  normalizeUsername : String → String
  localdate : Int → Int
  now : Int

/-- What `/userinfo` answers. -/
structure UserInfo where
  sub : String
  givenName : String
  /-- `family_name` of FranceConnect, `usual_name` of ProConnect. -/
  familyName : String
  email : String
  birthdate : Option Int
  gender : Option String
  structureTravail : String

/-- `OIDConnectUserData`. An attribute that is empty is not asserted. -/
structure OIDConnectUserData where
  email : String
  firstName : String
  lastName : String
  username : String
  title : String
  birthdate : Option Int
  kind : UserKind
  identityProvider : IdentityProvider
  allowedIdentityProviderMigration : List IdentityProvider
  allowSubUpdate : Bool

/-- `ProConnectUserData`. -/
def proConnectUserData (info : UserInfo) : OIDConnectUserData where
  email := info.email
  firstName := info.givenName
  lastName := info.familyName
  username := info.sub
  title := ""
  birthdate := none
  kind := .professional
  identityProvider := .proConnect
  allowedIdentityProviderMigration := [.django]
  allowSubUpdate := true

/-- `TITLE_MAP`. -/
def titleMap : String → String
  | "male" => "M"
  | "female" => "MME"
  | _ => ""

/-- `FranceConnectUserData`. -/
def franceConnectUserData (info : UserInfo) : OIDConnectUserData where
  email := info.email
  firstName := info.givenName
  lastName := info.familyName
  username := info.sub
  title := info.gender.elim "" titleMap
  birthdate := info.birthdate
  kind := .jobSeeker
  identityProvider := .franceConnect
  allowedIdentityProviderMigration := []
  allowSubUpdate := false

/-- What `create_or_update_user` raises. `failure` is an exception of the database or of Django. -/
inductive SsoException where
  | multipleSubSameEmail (user : User)
  | emailInUse (user : User)
  | invalidKind (user : User)
  | multipleUsersFound (user other : User)
  | registerForbidden
  | inactiveUser (user : User)
  | failure

variable {citext : String → String} (env : Environment)

namespace OIDConnectUserData

variable (data : OIDConnectUserData)

/-- `is_sub_update_allowed`. -/
def isSubUpdateAllowed (user : User) : Bool :=
  if user.isStaff then false else user.allowNextSsoSubUpdate || data.allowSubUpdate

/-- `login_allowed_user_kinds`. -/
def loginAllowedUserKinds : List UserKind := data.identityProvider.supportedUserKinds

/-! ## The account -/

/-- The account that has the sub. -/
def bySub (users : Users citext) : Option User :=
  users.rows.find? fun u => u.username = data.username && u.identityProvider = data.identityProvider

/-- The account that has the e-mail. -/
def byEmail (users : Users citext) : Option User := users.rows.find? fun u => u.hasEmail citext data.email

/-- Another account that has the e-mail. -/
def otherUser (users : Users citext) (user : User) : Option User :=
  users.rows.find? fun u => u.pk ≠ user.pk && u.hasEmail citext data.email

/-- The account to update. There is none when one has to be created. -/
def account (users : Users citext) (loginOnly : Bool) : Except SsoException (Option User) :=
  match data.bySub users with
  | some user =>
      match data.otherUser users user with
      | some other => .error (.multipleUsersFound user other)
      | none => .ok (some user)
  | none =>
      match data.byEmail users with
      | some user =>
          if user.identityProvider = data.identityProvider then
            if data.isSubUpdateAllowed user then .ok (some user) else .error (.multipleSubSameEmail user)
          else if user.identityProvider ∈ data.allowedIdentityProviderMigration then .ok (some user)
          else if user.kind ∈ data.loginAllowedUserKinds then .error (.emailInUse user)
          else .error (.invalidKind user)
      | none => if loginOnly then .error .registerForbidden else .ok none

/-! ## The row -/

/-- What is asserted of the user, for its history. -/
def assertions : List (UserField × String) :=
  [(.email, data.email), (.firstName, data.firstName), (.lastName, data.lastName), (.username, data.username),
    (.identityProvider, data.identityProvider.value), (.title, data.title)].filter fun assertion => assertion.2 ≠ ""

/-- `User.objects.create_user`, with the profile that the save creates. -/
def newUser (users : Users citext) : User where
  pk := users.freshPk
  username := env.normalizeUsername data.username
  email := some (env.normalizeEmail data.email)
  firstName := data.firstName
  lastName := data.lastName
  title := data.title
  kind := data.kind
  identityProvider := data.identityProvider
  isActive := true
  isStaff := false
  allowNextSsoSubUpdate := false
  externalDataSourceHistory := []
  jobseekerProfile := if data.kind = .jobSeeker then some {} else none

/-- `setattr`, for an attribute that may not be asserted. -/
def setattr (old value : String) : String := if value = "" then old else value

/-- The fields of the user that are not read only. Its kind is never updated. -/
def assign (user : User) : User :=
  { user with
    username := setattr user.username data.username
    email := if data.email = "" then user.email else some data.email
    firstName := if .firstName ∈ user.readonlyPiiFields then user.firstName else setattr user.firstName data.firstName
    lastName := if .lastName ∈ user.readonlyPiiFields then user.lastName else setattr user.lastName data.lastName
    title := if .title ∈ user.readonlyPiiFields then user.title else setattr user.title data.title
    identityProvider := data.identityProvider }

/-- The profile, once it is saved. Only a job seeker has a birthdate. -/
def assignProfile (user : User) : Option JobSeekerProfile :=
  user.jobseekerProfile.map fun profile =>
    match data.birthdate with
    | none => profile
    | some birthdate =>
        if data.kind ≠ .jobSeeker || .birthdate ∈ user.readonlyPiiFields then profile
        else profile.save { profile with birthdate := some birthdate }

end OIDConnectUserData

/-- `User.save`, over the row that was read. -/
def User.save (old new : User) : User :=
  let new := { new with isStaff := decide (new.kind = .itouStaff) }
  if new.kind = .jobSeeker && (new.lastName ≠ old.lastName || new.firstName ≠ old.firstName) then
    { new with jobseekerProfile := new.jobseekerProfile.map JobSeekerProfile.resetCertification }
  else new

namespace OIDConnectUserData

variable (data : OIDConnectUserData)

/-- The row that is saved. -/
def updated (created : Bool) (user : User) : User :=
  let assigned := if created then user else data.assign user
  user.save { assigned with
    jobseekerProfile := data.assignProfile user
    externalDataSourceHistory := data.assertions.foldl
      (User.updateHistoryField env.lower env.now data.identityProvider) user.externalDataSourceHistory
    allowNextSsoSubUpdate := false }

/-- The checks on the account, then its save. -/
def checkAndSave (users : Users citext) (created : Bool) (user : User) : Users citext × Except SsoException User :=
  if !user.isActive then (users, .error (.inactiveUser user))
  else if user.kind ∉ data.loginAllowedUserKinds then (users, .error (.invalidKind user))
  else if data.kind = .jobSeeker && user.jobseekerProfile.isNone then (users, .error .failure)
  else
    match users.update (data.updated env created user) with
    | none => (users, .error .failure)
    | some users => (users, .ok (data.updated env created user))

/-- `create_or_update_user`: the accounts afterwards, and the user or the exception. -/
def createOrUpdateUser (users : Users citext) (loginOnly : Bool) : Users citext × Except SsoException User :=
  match data.account users loginOnly with
  | .error e => (users, .error e)
  | .ok (some user) => data.checkAndSave env users false user
  | .ok none =>
      if data.username = "" then (users, .error .failure)
      else
        match users.insert (data.newUser env users) with
        | none => (users, .error .failure)
        | some inserted => data.checkAndSave env inserted true (data.newUser env users)

end OIDConnectUserData

/-! ## Organizations -/

/-- `join_org`, for an organization that exists and has not the member. -/
def joinOrg (db : Db citext) (user : User) (safir : String) : Option (Db citext) :=
  if user.kind = .professional ∧ safir ≠ "" then
    match db.safirCodes.lookup safir with
    | none => some db
    | some organization =>
        let organizations := db.organizationsDb .prescriber
        if (organizations.activeMemberships organization).any fun m => m.user = user.pk then some db
        else
          (organizations.addOrActivateMembership env.localdate env.now organization user.asMember none).bind
            (db.setTables .prescriber)
  else some db

/-- `pending().filter(email=request.user.email)`. -/
def pendingInvitations (db : Db citext) (kind : OrganizationKind) (user : User) : List Invitation :=
  orderBy (fun i : Invitation => i.sentAt.getD 0) <| (db.organizations kind).invitations.filter fun i =>
    i.pending env.localdate env.now && some i.email = user.email

/-- `invitation_models`. -/
def invitationModels : List OrganizationKind := [.prescriber, .employer, .laborInspector]

/-- `can_be_accepted` of an employer's invitation also asks for an active company. -/
def targetIsActive (db : Db citext) (kind : OrganizationKind) (i : Invitation) : Bool :=
  kind ≠ .employer || i.organization ∈ db.activeCompanies

/-- The invitations of one model. -/
def acceptPendingInvitations (user : User) (db : Db citext) (kind : OrganizationKind) : Option (Db citext) :=
  ((pendingInvitations env db kind user).foldlM
    (fun (organizations : Organizations.Db) i => organizations.handleInvitation citext env.localdate env.now
      user.asMember (targetIsActive db kind i) i) (db.organizationsDb kind)).bind (db.setTables kind)

/-- `accept_all_pending_invitations`. -/
def acceptAllPendingInvitations (db : Db citext) (user : User) : Option (Db citext) :=
  invitationModels.foldlM (acceptPendingInvitations env user) db

/-! ## The callbacks -/

/-- The user that the session is opened for, and the database afterwards. -/
structure Answer (citext : String → String) where
  session : Option Nat
  db : Db citext

/-- `ProConnectChannel`. -/
inductive ProConnectChannel where
  | invitation
  | mapConseiller
  | nexus
  deriving DecidableEq

/-- `pro_connect_state.data`. -/
structure ProConnectState where
  userEmail : Option String
  channel : Option ProConnectChannel
  deriving DecidableEq

/-- The login through ProConnect began with another e-mail. -/
def isOtherEmail (state : ProConnectState) (info : UserInfo) : Bool :=
  state.userEmail.any fun email => email ≠ "" && env.lower email ≠ env.lower info.email

/-- The end of `pro_connect_callback`, for a user. -/
def proConnectLogin (info : UserInfo) (isSuccessful : Bool) (db : Db citext) (user : User) : Option (Answer citext) :=
  if isSuccessful then do
    let db ← joinOrg env db user info.structureTravail
    let db ← acceptAllPendingInvitations env db user
    return ⟨some user.pk, db⟩
  else some ⟨none, db⟩

/-- `pro_connect_callback`. -/
def proConnectCallback (state : ProConnectState) (info : UserInfo) (db : Db citext) : Option (Answer citext) :=
  let data := proConnectUserData info
  let isSuccessful := !isOtherEmail env state info
  let outcome := data.createOrUpdateUser env db.users (state.channel = some .nexus)
  let db := { db with users := outcome.1 }
  match outcome.2 with
  | .ok user => proConnectLogin env info isSuccessful db user
  | .error (.multipleUsersFound user _) => proConnectLogin env info isSuccessful db user
  | .error (.inactiveUser _) => some ⟨none, db⟩
  | .error (.invalidKind _) => (data.byEmail db.users).map fun _ => ⟨none, db⟩
  | .error (.emailInUse _) => some ⟨none, db⟩
  | .error .registerForbidden => some ⟨none, db⟩
  | .error (.multipleSubSameEmail _) => none
  | .error .failure => none

/-- `init_user_nir_from_session`. -/
def initUserNirFromSession (users : Users citext) (user : User) : Option String → Option (Users citext)
  | none => some users
  | some nir => user.jobseekerProfile.bind fun profile =>
      users.update { user with
        jobseekerProfile := some (profile.save { profile with
          nir := nir
          lackOfNirReason := "" }) }

/-- `france_connect_callback`. -/
def franceConnectCallback (nir : Option String) (info : UserInfo) (db : Db citext) : Option (Answer citext) :=
  let outcome := (franceConnectUserData info).createOrUpdateUser env db.users false
  match outcome.2 with
  | .ok user => (initUserNirFromSession outcome.1 user nir).map fun users => ⟨some user.pk, { db with users }⟩
  | .error .registerForbidden => none
  | .error .failure => none
  | .error _ => some ⟨none, { db with users := outcome.1 }⟩

/-- A login, with what the session holds. -/
inductive Login where
  | proConnect (state : ProConnectState) (info : UserInfo)
  | franceConnect (nir : Option String) (info : UserInfo)

def Login.data : Login → OIDConnectUserData
  | .proConnect _ info => proConnectUserData info
  | .franceConnect _ info => franceConnectUserData info

/-- The callback of the provider. -/
def Login.callback (db : Db citext) : Login → Option (Answer citext)
  | .proConnect state info => proConnectCallback env state info db
  | .franceConnect nir info => franceConnectCallback env nir info db

/-- What a callback leaves. -/
def Login.respond (login : Login) (db : Db citext) : Answer citext := (login.callback env db).getD ⟨none, db⟩

/-! ## The law -/

/-- The fields that are read only are as before. -/
structure KeepsReadonly (u u' : User) : Prop where
  firstName : .firstName ∈ u.readonlyPiiFields → u'.firstName = u.firstName
  lastName : .lastName ∈ u.readonlyPiiFields → u'.lastName = u.lastName
  title : .title ∈ u.readonlyPiiFields → u'.title = u.title
  birthdate : .birthdate ∈ u.readonlyPiiFields →
    u'.jobseekerProfile.map JobSeekerProfile.birthdate = u.jobseekerProfile.map JobSeekerProfile.birthdate

/-- An account that has this e-mail, of a provider that may migrate or whose sub may be updated. -/
def OIDConnectUserData.MayTake (citext : String → String) (data : OIDConnectUserData) (u : User) : Prop :=
  u.hasEmail citext data.email = true ∧ (u.identityProvider ∈ data.allowedIdentityProviderMigration ∨
    u.identityProvider = data.identityProvider ∧ data.isSubUpdateAllowed u = true)

/-- The account already had the sub, or it is new, or the provider may take it. -/
def MayLogIn (data : OIDConnectUserData) (users : Users citext) (pk : Nat) : Prop :=
  (∃ u ∈ users.rows, u.pk = pk ∧ u.username = data.username ∧ u.identityProvider = data.identityProvider) ∨
    (∀ u ∈ users.rows, u.pk ≠ pk) ∨ ∃ u ∈ users.rows, u.pk = pk ∧ data.MayTake citext u

/-- A safe answer to a login. -/
structure IsSafe (data : OIDConnectUserData) (db : Db citext) (answer : Answer citext) : Prop where
  session : ∀ pk ∈ answer.session, MayLogIn data db.users pk ∧
    ∃ u ∈ answer.db.users.rows, u.pk = pk ∧ u.isActive = true ∧ u.kind ∈ data.loginAllowedUserKinds
  inactive : ∀ u ∈ db.users.rows, u.isActive = false → answer.session ≠ some u.pk ∧
    ∀ kind, ∀ i ∈ (db.organizations kind).invitations, u.hasEmail citext i.email = true → i.acceptedAt = none →
      ∃ i' ∈ (answer.db.organizations kind).invitations, i'.id = i.id ∧ i'.acceptedAt = none
  kinds : ∀ u ∈ db.users.rows, ∀ u' ∈ answer.db.users.rows, u'.pk = u.pk → u'.kind = u.kind
  readonly : ∀ u ∈ db.users.rows, ∀ u' ∈ answer.db.users.rows, u'.pk = u.pk → KeepsReadonly u u'
  refused : answer.session = none → answer.db.users = db.users

/-! ## The condition -/

/-- The last entry of the history of the field has the asserted value, up to the case of a name. -/
def Recorded (history : List HistoryEntry) (assertion : UserField × String) : Prop :=
  ∃ value, ((history.filter fun entry => entry.fieldName = assertion.1).getLast?).map HistoryEntry.value = some value ∧
    (value = assertion.2 ∨ (assertion.1 = .lastName ∨ assertion.1 = .firstName) ∧ value ≠ "" ∧
      env.lower value = env.lower assertion.2)

/-- The account has what the provider asserts. -/
structure OIDConnectUserData.UpToDate (data : OIDConnectUserData) (u : User) : Prop where
  username : data.username ≠ "" → u.username = data.username
  email : data.email ≠ "" → u.email = some data.email
  firstName : data.firstName ≠ "" → u.firstName = data.firstName
  lastName : data.lastName ≠ "" → u.lastName = data.lastName
  identityProvider : u.identityProvider = data.identityProvider
  allowNextSsoSubUpdate : u.allowNextSsoSubUpdate = false
  history : ∀ assertion ∈ data.assertions, Recorded env u.externalDataSourceHistory assertion

/-- The sub is the username of another account. -/
def OIDConnectUserData.IsTaken (data : OIDConnectUserData) (users : Users citext) (u : User) : Prop :=
  data.username ≠ "" ∧ ∃ v ∈ users.rows, v.pk ≠ u.pk ∧ v.username = data.username

/-- No account can be created. -/
def OIDConnectUserData.CannotCreate (data : OIDConnectUserData) (users : Users citext) : Prop :=
  data.username = "" ∨ ∃ v ∈ users.rows, v.username = env.normalizeUsername data.username ∨
    v.hasEmail citext (env.normalizeEmail data.email) = true

/-- The account of the sub is active, when another one has its e-mail; and a login that began with another e-mail finds
nothing to change and nothing to create. -/
def Login.Careful (db : Db citext) : Login → Prop
  | .proConnect state info =>
      let data := proConnectUserData info
      (isOtherEmail env state info = false →
        ∀ u ∈ data.bySub db.users, (data.otherUser db.users u).isSome = true → u.isActive = true) ∧
      (isOtherEmail env state info = true →
        (∀ u, data.account db.users (state.channel = some .nexus) = .ok (some u) → u.isActive = true →
          u.kind = .professional → data.IsTaken db.users u ∨ data.UpToDate env u) ∧
        (data.account db.users (state.channel = some .nexus) = .ok none → data.CannotCreate env db.users))
  | .franceConnect _ _ => True

end Itou.OpenidConnect
