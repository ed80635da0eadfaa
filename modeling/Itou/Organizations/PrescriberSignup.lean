import Mathlib.Data.Rat.Defs
import Itou.Lib.Texts
import Itou.Organizations.Lemmas.Members

/-!
# The signup of prescribers

The steps that fill the session of the signup, and the last one, which creates the organization. What the external
services answer, and the rows that other requests leave, come with each request.
-/

namespace Itou.Organizations

open Itou.Lib

/-! ## Kinds and statuses -/

inductive PrescriberOrganizationKind where
  | afpa | ase | orienteur | caarud | cada | caf | capEmploi | cava | ccas | chrs | chu | cidff | cph | csapa | e2c
  | epide | ft | huda | ml | msa | oacas | oil | odc | ohpd | ocasf | pension | pijBij | pjj | plie | rsFjt | prevention
  | dept | spip | other
  deriving DecidableEq

namespace PrescriberOrganizationKind

def value : PrescriberOrganizationKind → String
  | .afpa => "AFPA" | .ase => "ASE" | .orienteur => "Orienteur" | .caarud => "CAARUD" | .cada => "CADA"
  | .caf => "CAF" | .capEmploi => "CAP_EMPLOI" | .cava => "CAVA" | .ccas => "CCAS" | .chrs => "CHRS" | .chu => "CHU"
  | .cidff => "CIDFF" | .cph => "CPH" | .csapa => "CSAPA" | .e2c => "E2C" | .epide => "EPIDE" | .ft => "FT"
  | .huda => "HUDA" | .ml => "ML" | .msa => "MSA" | .oacas => "OACAS" | .oil => "OIL" | .odc => "ODC"
  | .ohpd => "OHPD" | .ocasf => "OCASF" | .pension => "PENSION" | .pijBij => "PIJ_BIJ" | .pjj => "PJJ"
  | .plie => "PLIE" | .rsFjt => "RS_FJT" | .prevention => "PREVENTION" | .dept => "DEPT" | .spip => "SPIP"
  | .other => "Autre"

def choices : List PrescriberOrganizationKind :=
  [.afpa, .ase, .orienteur, .caarud, .cada, .caf, .capEmploi, .cava, .ccas, .chrs, .chu, .cidff, .cph, .csapa, .e2c,
    .epide, .ft, .huda, .ml, .msa, .oacas, .oil, .odc, .ohpd, .ocasf, .pension, .pijBij, .pjj, .plie, .rsFjt,
    .prevention, .dept, .spip, .other]

end PrescriberOrganizationKind

def hiddenPrescriberKinds : List PrescriberOrganizationKind := [.ft, .ohpd, .ocasf, .orienteur]

def choosablePrescriberKinds : List PrescriberOrganizationKind :=
  PrescriberOrganizationKind.choices.filter fun k => !hiddenPrescriberKinds.contains k

inductive PrescriberAuthorizationStatus where
  | notSet
  | validated
  | refused
  | notRequired
  deriving DecidableEq

/-! ## Rows -/

/-- A row of `PrescriberOrganization`. A point has a longitude and a latitude. -/
structure PrescriberOrganization where
  pk : Nat
  siret : Option String
  kind : PrescriberOrganizationKind
  name : String
  addressLine1 : String
  addressLine2 : String
  postCode : String
  city : String
  department : String
  coords : Option (Rat × Rat)
  geocodingScore : Option Rat
  authorizationStatus : PrescriberAuthorizationStatus
  createdBy : Option Nat
  deriving DecidableEq

/-- The organizations, and their members. -/
structure SignupDb where
  organizations : List PrescriberOrganization
  members : Db
  foreignKey : ∀ m ∈ members.memberships.rows, ∃ o ∈ organizations, o.pk = m.organization

@[ext] theorem SignupDb.ext {db db' : SignupDb} (h : db.organizations = db'.organizations)
    (h' : db.members = db'.members) : db = db' := by
  cases db
  cases db'
  cases h
  cases h'
  rfl

instance : DecidableEq SignupDb := fun db db' =>
  decidable_of_iff (db.organizations = db'.organizations ∧ db.members = db'.members)
    ⟨fun h => SignupDb.ext h.1 h.2, fun h => h ▸ ⟨rfl, rfl⟩⟩

/-! ## The session -/

/-- `form.org_data`. -/
structure OrgData where
  siret : String
  name : Option String
  addressLine1 : Option String
  addressLine2 : Option String
  postCode : Option String
  city : Option String
  department : Option String
  longitude : Option Rat
  latitude : Option Rat
  geocodingScore : Option Rat
  deriving DecidableEq

/-- The session of the signup. -/
structure SignupSession where
  authorizationStatus : Option PrescriberAuthorizationStatus
  kind : Option PrescriberOrganizationKind
  prescriberOrgData : Option OrgData
  deriving DecidableEq

/-- What the API says of an establishment. -/
structure Etablissement where
  name : Option String
  addressLine1 : Option String
  addressLine2 : Option String
  postCode : Option String
  city : Option String
  department : Option String
  isClosed : Bool
  deriving DecidableEq

structure GeocodingData where
  longitude : Option Rat
  latitude : Option Rat
  score : Option Rat
  deriving DecidableEq

/-- `_get_organization_data_from_api`. `none` is an error of the form, and a missing geocoding a `GeocodingDataError`. -/
def getOrganizationDataFromApi (siret : String) (establishment : Option Etablissement)
    (geocoding : Option GeocodingData) : Option OrgData :=
  match establishment with
  | none => none
  | some e =>
      if e.isClosed then none
      else some {
        siret := siret
        name := e.name
        addressLine1 := e.addressLine1
        addressLine2 := e.addressLine2
        postCode := e.postCode
        city := e.city
        department := e.department
        longitude := geocoding.bind (·.longitude)
        latitude := geocoding.bind (·.latitude)
        geocodingScore := geocoding.bind (·.score) }

/-- `lat_lon_to_coords`. -/
def latLonToCoords : Option Rat → Option Rat → Option (Rat × Rat)
  | some lat, some lon => some (lon, lat)
  | _, _ => none

/-! ## The organization is created -/

namespace SignupDb

variable (db : SignupDb)

def freshPk : Nat := (db.organizations.map (·.pk)).max?.getD 0 + 1

/-- A `varchar` of a length, which has no NUL character. -/
def varchar (length : Nat) (text : String) : Bool := text.length ≤ length && text.toList.all (· ≠ '\x00')

/-- The constraint `prescriber_organization_siret_regex`. -/
def isSiret (siret : String) : Bool := siret.length = 14 && siret.toList.all Char.isDigit

/-- The row to insert. `none` when a column that is not null has no value. -/
def organizationOf (data : OrgData) (kind : PrescriberOrganizationKind) (status : Option PrescriberAuthorizationStatus)
    (createdBy : Nat) : Option PrescriberOrganization :=
  match data.name, data.postCode, data.city, data.department, status with
  | some name, some postCode, some city, some department, some status => some {
      pk := db.freshPk
      siret := some data.siret
      kind := kind
      name := name
      addressLine1 := data.addressLine1.getD ""
      addressLine2 := data.addressLine2.getD ""
      postCode := postCode
      city := city
      department := department
      coords := latLonToCoords data.latitude data.longitude
      geocodingScore := data.geocodingScore
      authorizationStatus := status
      createdBy := some createdBy }
  | _, _, _, _, _ => none

/-- The database takes the row: the lengths of its texts, the unique key and the constraints of the table. The one on
`is_brsa` holds: `save` sets the column of an `ODC` that is `VALIDATED`. -/
def accepts (o : PrescriberOrganization) : Bool :=
  varchar 255 o.name && varchar 255 o.addressLine1 && varchar 255 o.addressLine2 && varchar 5 o.postCode &&
    varchar 255 o.city && varchar 3 o.department && o.siret.all isSiret &&
    (db.organizations.all fun other => !(other.siret = o.siret && other.kind = o.kind)) &&
    !(o.authorizationStatus = .validated && o.kind = .other) &&
    (o.authorizationStatus ≠ .notRequired || o.kind = .other)

/-- `create_organization`, under `transaction.atomic()`, and `add_or_activate_membership`. `none` is an `Error`. -/
def createAndJoin (localdate : Int → Int) (now : Int) (user : User) (data : OrgData)
    (kind : PrescriberOrganizationKind) (status : Option PrescriberAuthorizationStatus) : Option SignupDb :=
  match db.organizationOf data kind status user.pk with
  | none => none
  | some o =>
      if db.accepts o then
        match h : db.members.addOrActivateMembership localdate now o.pk user none with
        | none => none
        | some members => some {
            organizations := db.organizations ++ [o]
            members := members
            foreignKey := by
              intro m hm
              obtain ⟨m', hwrites, -⟩ := addOrActivateMembership_writes h
              by_cases hkey : m.user = user.pk ∧ m.organization = o.pk
              · exact ⟨o, List.mem_append_right _ List.mem_cons_self, hkey.2.symm⟩
              · obtain ⟨o', ho', hpk⟩ := db.foreignKey m ((hwrites.others m hkey).mp hm)
                exact ⟨o', List.mem_append_left _ ho', hpk⟩ }
      else none

end SignupDb

/-! ## The views -/

inductive Url where
  | searchEmployersResults
  | prescriberCheckAlreadyExists
  | proPostJoin
  deriving DecidableEq

inductive Answer where
  | redirect (url : Url)
  | permissionDenied
  deriving DecidableEq

/-- The two expressions of `prescriber_join_org` that can raise a `TypeError`. -/
inductive JoinError where
  /-- `kind in PrescriberOrganizationKind.FT.value`. -/
  | noneInText
  /-- `session_data["prescriber_org_data"]["siret"]`. -/
  | noneNotSubscriptable
  deriving DecidableEq

/-- `join_non_authorized_org`. -/
def joinNonAuthorizedOrg (kind : PrescriberOrganizationKind) (status : Option PrescriberAuthorizationStatus) : Bool :=
  status = some .notRequired && kind = .other

/-- `join_authorized_org`. -/
def joinAuthorizedOrg (kind : PrescriberOrganizationKind) (status : Option PrescriberAuthorizationStatus) : Bool :=
  isIn kind.value PrescriberOrganizationKind.ft.value || status = some .notSet

/-- There can be only one kind. -/
def isOneKind (kind : PrescriberOrganizationKind) (status : Option PrescriberAuthorizationStatus) : Bool :=
  (joinNonAuthorizedOrg kind status).toNat + (joinAuthorizedOrg kind status).toNat = 1

/-- `prescriber_join_org`. -/
def prescriberJoinOrg (localdate : Int → Int) (now : Int) (db : SignupDb) (user : User)
    (session : Option SignupSession) : Except JoinError (Answer × SignupDb × Option SignupSession) :=
  match session with
  | none => .ok (.permissionDenied, db, none)
  | some data =>
      if !user.isProfessional then .ok (.redirect .searchEmployersResults, db, some data)
      else
        match data.kind with
        | none => .error .noneInText
        | some kind =>
            if !isOneKind kind data.authorizationStatus then .ok (.permissionDenied, db, some data)
            else
              match data.prescriberOrgData with
              | none => .error .noneNotSubscriptable
              | some orgData =>
                  match db.createAndJoin localdate now user orgData kind data.authorizationStatus with
                  | none => .ok (.redirect .prescriberCheckAlreadyExists, db, some data)
                  | some db' => .ok (.redirect .proPostJoin, db', none)

/-- The requests of one browser. A text that was not posted is `none`. -/
inductive SignupRequest where
  /-- `prescriber_check_already_exists`, which starts a fresh session. -/
  | checkAlreadyExists
  /-- `prescriber_choose_org`, with the organizations there are, and what the services answer. -/
  | chooseOrg (siret : String) (kind : Option String) (organizations : List PrescriberOrganization)
      (establishment : Option Etablissement) (geocoding : Option GeocodingData)
  | chooseKind (kind : Option String)
  | confirmAuthorization (confirm : Option String)
  /-- `prescriber_request_invitation`, for a membership that exists or not. -/
  | requestInvitation (membershipExists : Bool)
  | joinOrg (localdate : Int → Int) (now : Int) (db : SignupDb) (user : User)

namespace SignupRequest

/-- `PrescriberChooseOrgKindForm`, when it is valid: the kind and the data. -/
def chosenOrg : SignupRequest → Option (PrescriberOrganizationKind × OrgData)
  | .chooseOrg siret kind organizations establishment geocoding =>
      ((kind.bind fun text => choosablePrescriberKinds.find? (·.value = text)).filter fun kind =>
        organizations.all fun o => !(o.siret = some siret && o.kind = kind)).bind fun kind =>
          (getOrganizationDataFromApi siret establishment geocoding).map fun data => (kind, data)
  | _ => none

/-- What a request does to the session, once there is one. -/
def update (r : SignupRequest) (s : SignupSession) : Option SignupSession :=
  match r with
  | .checkAlreadyExists => some ⟨none, none, none⟩
  | .chooseOrg siret kind organizations establishment geocoding =>
      match (chooseOrg siret kind organizations establishment geocoding).chosenOrg with
      | none => some s
      | some (kind, data) =>
          some ⟨if kind = .other then none else some .notSet, some kind, some data⟩
  | .chooseKind kind =>
      if kind = some "authorized_org" then some { s with authorizationStatus := none, kind := none }
      else if kind = some "unauthorized_org" then
        some { s with authorizationStatus := some .notRequired, kind := some .other }
      else some s
  | .confirmAuthorization confirm =>
      if confirm = some "1" then some { s with authorizationStatus := some .notSet, kind := some .other }
      else if confirm = some "0" then some { s with authorizationStatus := some .notRequired, kind := some .other }
      else some s
  | .requestInvitation membershipExists => if membershipExists then none else some s
  | .joinOrg localdate now db user =>
      match prescriberJoinOrg localdate now db user (some s) with
      | .error _ => some s
      | .ok (_, _, s') => s'

/-- Without a session, `valid_prescriber_signup_session_required` refuses each step but the first. -/
def next (session : Option SignupSession) (r : SignupRequest) : Option SignupSession :=
  match session, r with
  | none, .checkAlreadyExists => some ⟨none, none, none⟩
  | none, _ => none
  | some s, r => r.update s

end SignupRequest

/-- The session after some requests. -/
def sessionAfter (requests : List SignupRequest) : Option SignupSession := requests.foldl SignupRequest.next none

/-! ## What the steps answer -/

/-- The kind and the status that an answer gives. -/
def SignupRequest.answer : SignupRequest → Option (PrescriberOrganizationKind × PrescriberAuthorizationStatus)
  | .chooseOrg siret kind organizations establishment geocoding =>
      ((SignupRequest.chooseOrg siret kind organizations establishment geocoding).chosenOrg.filter
        (·.1 ≠ .other)).map fun chosen => (chosen.1, .notSet)
  | .chooseKind kind => if kind = some "unauthorized_org" then some (.other, .notRequired) else none
  | .confirmAuthorization confirm =>
      if confirm = some "1" then some (.other, .notSet)
      else if confirm = some "0" then some (.other, .notRequired)
      else none
  | _ => none

/-- Some sequence of answers gives this kind and this status. -/
def Offered (kind : PrescriberOrganizationKind) (status : PrescriberAuthorizationStatus) : Prop :=
  kind ∈ choosablePrescriberKinds ∧ (status = .notRequired ∧ kind = .other ∨ status = .notSet)

/-- The data of the establishment are the last that a choice fetched, and the answers were given at this choice or
later. -/
def AnsweredSince (requests : List SignupRequest) (siret : String)
    (answers : List (PrescriberOrganizationKind × PrescriberAuthorizationStatus)) : Prop :=
  ∃ earlier kind organizations establishment geocoding later,
    requests = earlier ++ .chooseOrg siret kind organizations establishment geocoding :: later ∧
      (SignupRequest.chooseOrg siret kind organizations establishment geocoding).chosenOrg.isSome ∧
      (∀ r ∈ later, r.chosenOrg = none) ∧
      ∀ answer ∈ answers, ∃ r ∈ .chooseOrg siret kind organizations establishment geocoding :: later,
        r.answer = some answer

end Itou.Organizations
