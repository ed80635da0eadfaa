import Itou.Lib.Json
import Itou.Lib.LockedUpserts
import Itou.Users

/-!
# The webhook of RDV-Insertion

A delivery is one transaction: it creates its `WebhookEvent`, and then runs its upserts under a savepoint. The program of a
delivery lists them, with a hole where the code raises. The primary keys of locations and appointments are their
identifiers in RDV-Solidarités and RDV-Insertion. HMAC, the decoding of texts and the conversions of values are parameters.
-/

namespace Itou.RdvInsertion

open Itou.Lib

/-! ## Rows -/

inductive ParticipationStatus where
  | unknown
  | seen
  | excused
  | revoked
  | noshow
  deriving DecidableEq

inductive InvitationRequestReasonCategory where
  | rsaDroitsDevoirs
  | rsaOrientation
  | rsaOrientationFranceTravail
  | rsaAccompagnement
  | rsaAccompagnementSocial
  | rsaAccompagnementSociopro
  | rsaOrientationOnPhonePlatform
  | rsaCerSignature
  | rsaInsertionOffer
  | rsaFollowUp
  | rsaMainTendue
  | rsaAtelierCollectifMandatory
  | rsaSpie
  | rsaIntegrationInformation
  | rsaAtelierCompetences
  | rsaAtelierRencontresPro
  | psychologue
  | rsaOrientationFreelance
  | rsaOrientationCoaching
  | atelierEnfantsAdos
  | rsaOrientationFileActive
  | siaeInterview
  | siaeCollectiveInformation
  | siaeFollowUp
  deriving DecidableEq

inductive InvitationStatus where
  | sent
  | delivered
  | notDelivered
  | opened
  deriving DecidableEq

/-- Some columns are those of the body as they stand there. -/
structure Location where
  rdvSolidaritesId : Int
  name : Json
  address : Json
  phoneNumber : Json

structure Appointment where
  company : Nat
  rdvInsertionId : Int
  status : ParticipationStatus
  reasonCategory : InvitationRequestReasonCategory
  reason : Json
  isCollective : Json
  startAt : Int
  duration : Int
  canceledAt : Option Int
  address : Json
  totalParticipants : Json
  maxParticipants : Json
  location : Option Int

structure Participation where
  jobSeeker : Nat
  appointment : Int
  status : ParticipationStatus
  rdvInsertionUserId : Int
  rdvInsertionId : Option Int

structure Invitation where
  rdvInsertionId : Int
  status : InvitationStatus
  deliveredAt : Option Int

/-- A row that deliveries write. -/
inductive Row where
  | location (l : Location)
  | appointment (a : Appointment)
  | participation (p : Participation)
  | invitation (i : Invitation)

/-- What `update_or_create` looks a row up by. -/
inductive Key where
  | location (rdvSolidaritesId : Int)
  | appointment (rdvInsertionId : Int)
  | participation (jobSeeker : Nat) (appointment : Int)
  | invitation (rdvInsertionId : Int)
  deriving DecidableEq

/-- The rows that are locked, with the unique identifiers that are being inserted. -/
inductive Lock where
  | location (rdvSolidaritesId : Int)
  | appointment (rdvInsertionId : Int)
  | invitation (rdvInsertionId : Int)
  deriving DecidableEq

def Row.key : Row → Key
  | .location l => .location l.rdvSolidaritesId
  | .appointment a => .appointment a.rdvInsertionId
  | .participation p => .participation p.jobSeeker p.appointment
  | .invitation i => .invitation i.rdvInsertionId

/-- The participations have no unique constraint on their key: they are safe behind the lock of their appointment. -/
def Key.lock : Key → Lock
  | .location id => .location id
  | .appointment id => .appointment id
  | .participation _ id => .appointment id
  | .invitation id => .invitation id

/-- The identifier of a participation in RDV-Insertion, when it has one. -/
def Row.participationId : Row → Option Int
  | .participation p => p.rdvInsertionId
  | .location _ | .appointment _ | .invitation _ => none

/-- `update_or_create` waits for the row, or for the transaction that inserts the same unique identifier, and reads again
after an `IntegrityError`. -/
def upserts : LockedUpserts Row Key Lock where
  key := Row.key
  lock := Key.lock
  constraint := fun rows => decide (rows.filterMap Row.participationId).Nodup

abbrev Statement : Type := upserts.Statement

/-! ## Other tables -/

structure Company extends Itou.Company where
  siret : String
  rdvSolidaritesId : Option Int

structure InvitationRequest where
  jobSeeker : Nat
  company : Nat
  rdvInsertionUserId : Int

/-- The rows that deliveries read. The invitation requests are in the order of the model, the last created first. -/
structure Tables where
  companies : List Company
  invitationRequests : List InvitationRequest

/-- What the values of the body become. `none` for an exception. -/
structure Builtins where
  /-- `IntegerField`. -/
  integer : Json → Option Int
  /-- `datetime.fromisoformat`. -/
  fromisoformat : String → Option Int
  /-- `timedelta(minutes=…)`. -/
  minutes : Json → Option Int
  /-- The bytes are UTF-8. -/
  isUtf8 : List UInt8 → Bool
  /-- The `hexdigest` of the bytes, with the secret of the webhook. -/
  hexdigest : List UInt8 → String
  /-- `json.loads`. -/
  loads : List UInt8 → Option Json

variable (b : Builtins)

/-! ## Values of a body -/

/-- `Appointment.Status` and `Participation.Status`. -/
def participationStatus (value : Json) : Option ParticipationStatus :=
  (([("unknown", .unknown), ("seen", .seen), ("excused", .excused), ("revoked", .revoked), ("noshow", .noshow)] :
    List (String × ParticipationStatus)).find? fun c => value.isText c.1).map Prod.snd

/-- `Appointment.ReasonCategory`. -/
def reasonCategory (value : Json) : Option InvitationRequestReasonCategory :=
  (([("rsa_droits_devoirs", .rsaDroitsDevoirs), ("rsa_orientation", .rsaOrientation),
    ("rsa_orientation_france_travail", .rsaOrientationFranceTravail), ("rsa_accompagnement", .rsaAccompagnement),
    ("rsa_accompagnement_social", .rsaAccompagnementSocial),
    ("rsa_accompagnement_sociopro", .rsaAccompagnementSociopro),
    ("rsa_orientation_on_phone_platform", .rsaOrientationOnPhonePlatform), ("rsa_cer_signature", .rsaCerSignature),
    ("rsa_insertion_offer", .rsaInsertionOffer), ("rsa_follow_up", .rsaFollowUp), ("rsa_main_tendue", .rsaMainTendue),
    ("rsa_atelier_collectif_mandatory", .rsaAtelierCollectifMandatory), ("rsa_spie", .rsaSpie),
    ("rsa_integration_information", .rsaIntegrationInformation),
    ("rsa_atelier_competences", .rsaAtelierCompetences), ("rsa_atelier_rencontres_pro", .rsaAtelierRencontresPro),
    ("psychologue", .psychologue), ("rsa_orientation_freelance", .rsaOrientationFreelance),
    ("rsa_orientation_coaching", .rsaOrientationCoaching), ("atelier_enfants_ados", .atelierEnfantsAdos),
    ("rsa_orientation_file_active", .rsaOrientationFileActive), ("siae_interview", .siaeInterview),
    ("siae_collective_information", .siaeCollectiveInformation), ("siae_follow_up", .siaeFollowUp)] :
    List (String × InvitationRequestReasonCategory)).find? fun c => value.isText c.1).map Prod.snd

/-- The value of a lookup: `None` is looked up as `NULL`. -/
def lookupInteger (value : Json) : Option (Option Int) :=
  match value with
  | .null => some none
  | value => (b.integer value).map some

/-- The value of a nullable `IntegerField`. -/
abbrev nullableInteger : Json → Option (Option Int) := lookupInteger b

/-- A date, when the value is true. -/
def dateOrNone (value : Json) : Option (Option Int) :=
  if value.isTrue then (value.text?.bind b.fromisoformat).map some else some none

/-! ## Appointments -/

/-- `rdvs_company_id` and the `invitation_requests`. -/
def matchingRequests (t : Tables) (data : Json) : Option (Option Int × List InvitationRequest) := do
  let organisation ← data.get? "organisation"
  let rdvsCompanyId ← lookupInteger b (← organisation.get? "rdv_solidarites_organisation_id")
  let users ← (← data.get? "users").elements
  let rdviUserIds ← (← users.mapM (JsonValue.get? "id")).mapM (lookupInteger b)
  return (rdvsCompanyId, t.invitationRequests.filter fun r =>
    (t.companies.any fun c => c.pk = r.company && c.rdvSolidaritesId = rdvsCompanyId) &&
      rdviUserIds.any fun id => id = some r.rdvInsertionUserId)

/-- The location of the body, if there is one. -/
def locationOf (data : Json) : Option (Option Location) := do
  let lieu ← data.get? "lieu"
  if lieu.isTrue then
    let rdvSolidaritesId ← b.integer (← lieu.get? "rdv_solidarites_lieu_id")
    let name ← lieu.get? "name"
    let address ← lieu.get? "address"
    let phoneNumber ← lieu.get? "phone_number"
    return some { rdvSolidaritesId, name, address, phoneNumber }
  else return none

/-- `Company.objects.get`. The join of the invitation requests has the companies that the manager leaves out. -/
def getCompany (t : Tables) (rdvsCompanyId : Option Int) : Option Nat :=
  match t.companies.filter fun c => CompanyManager.has c.siret c.kind && c.rdvSolidaritesId = rdvsCompanyId with
  | [c] => some c.pk
  | [] | _ :: _ :: _ => none

def appointmentOf (t : Tables) (rdvsCompanyId : Option Int) (location : Option Int) (data : Json) :
    Option Appointment := do
  let company ← getCompany t rdvsCompanyId
  let rdvInsertionId ← b.integer (← data.get? "id")
  let status ← participationStatus (← data.get? "status")
  let motif ← data.get? "motif"
  let motifCategory ← motif.get? "motif_category"
  let reasonCategory ← reasonCategory (← motifCategory.get? "short_name")
  let reason ← motif.get? "name"
  let isCollective ← motif.get? "collectif"
  let startAt ← (← data.get? "starts_at").text?.bind b.fromisoformat
  let duration ← b.minutes (← data.get? "duration_in_min")
  let canceledAt ← dateOrNone b (← data.get? "cancelled_at")
  let address ← data.get? "address"
  let totalParticipants ← data.get? "users_count"
  let maxParticipants ← data.get? "max_participants_count"
  return { company, rdvInsertionId, status, reasonCategory, reason, isCollective, startAt, duration, canceledAt, address,
           totalParticipants, maxParticipants, location }

/-- `next` of the participations with the user. -/
def participationData (userId : Int) : List Json → Option (Option Json)
  | [] => some none
  | d :: ds =>
      if d.isTrue then do
        let user ← d.get? "user"
        let id ← user.get? "id"
        if id.isInt userId then return some d else participationData userId ds
      else participationData userId ds

/-- The status and the identifier of `defaults`, when the body has them. -/
def participationDefaults (data : Json) (userId : Int) : Option (Option (ParticipationStatus × Option Int)) := do
  let participations ← data.getOrNull "participations"
  let items ← if participations.isTrue then participations.elements else some []
  match ← participationData userId items with
  | none => return none
  | some d =>
      let status ← participationStatus (← d.get? "status")
      let rdvInsertionId ← nullableInteger b (← d.get? "id")
      return some (status, rdvInsertionId)

/-- The columns of `defaults` are set. -/
def Participation.assign (p : Participation) (userId : Int) (defaults : Option (ParticipationStatus × Option Int)) :
    Participation :=
  { p with
    rdvInsertionUserId := userId
    status := (defaults.map Prod.fst).getD p.status
    rdvInsertionId := (defaults.map Prod.snd).getD p.rdvInsertionId }

/-! ## Statements -/

def locationStatement (l : Location) : Statement where
  key := .location l.rdvSolidaritesId
  acquires := true
  apply := fun _ => some (.location l)
  key_apply := by
    rintro row row' - ⟨⟩
    rfl

/-- The lookup is by company too: another company's appointment is not found, and the insert breaks the unique
constraint. -/
def appointmentStatement (a : Appointment) : Statement where
  key := .appointment a.rdvInsertionId
  acquires := true
  apply
    | none => some (.appointment a)
    | some (.appointment old) => if old.company = a.company then some (.appointment a) else none
    | some (.location _) | some (.participation _) | some (.invitation _) => none
  key_apply := by
    rintro (_ | _ | old | _ | _) row' - h
    · cases h
      rfl
    · exact nomatch h
    · simp only at h
      split at h
      · cases h
        rfl
      · exact nomatch h
    · exact nomatch h
    · exact nomatch h

/-- The rows with this job seeker and this appointment are not locked when there is none. -/
def participationStatement (jobSeeker : Nat) (appointment : Int) (userId : Int)
    (defaults : Option (ParticipationStatus × Option Int)) : Statement where
  key := .participation jobSeeker appointment
  acquires := false
  apply
    | none => some (.participation (Participation.assign ⟨jobSeeker, appointment, .unknown, userId, none⟩ userId defaults))
    | some (.participation p) => some (.participation (p.assign userId defaults))
    | some (.location _) | some (.appointment _) | some (.invitation _) => none
  key_apply := by
    rintro (_ | _ | _ | p | _) row' hkey h
    · cases h
      rfl
    · exact nomatch h
    · exact nomatch h
    · cases h
      exact hkey (.participation p) rfl
    · exact nomatch h

/-- The invitation is read without a lock, and the columns that are saved do not depend on it. -/
def invitationStatement (id : Int) (status : Option InvitationStatus) (deliveredAt : Option Int) : Statement where
  key := .invitation id
  acquires := true
  apply
    | some (.invitation i) =>
        some (.invitation { i with status := status.getD i.status, deliveredAt := deliveredAt.or i.deliveredAt })
    | none | some (.location _) | some (.appointment _) | some (.participation _) => none
  key_apply := by
    rintro (_ | _ | _ | _ | i) row' hkey h
    · exact nomatch h
    · exact nomatch h
    · exact nomatch h
    · exact nomatch h
    · cases h
      exact hkey (.invitation i) rfl

/-! ## Programs -/

/-- One participation for each invitation request, in their order. -/
def participationStatements (data : Json) (appointment : Int) (requests : List InvitationRequest) :
    List (Option Statement) :=
  requests.map fun r => (participationDefaults b data r.rdvInsertionUserId).map
    (participationStatement r.jobSeeker appointment r.rdvInsertionUserId)

/-- The appointment and its participations. -/
def appointmentStatements (t : Tables) (rdvsCompanyId : Option Int) (requests : List InvitationRequest) (data : Json)
    (location : Option Int) : List (Option Statement) :=
  match appointmentOf b t rdvsCompanyId location data with
  | none => [none]
  | some a => some (appointmentStatement a) :: participationStatements b data a.rdvInsertionId requests

/-- The location first. -/
def appointmentProgram (t : Tables) (rdvsCompanyId : Option Int) (requests : List InvitationRequest) (data : Json) :
    List (Option Statement) :=
  match locationOf b data with
  | none => [none]
  | some none => appointmentStatements b t rdvsCompanyId requests data none
  | some (some l) =>
      some (locationStatement l) :: appointmentStatements b t rdvsCompanyId requests data (some l.rdvSolidaritesId)

/-- `get_invitation_status`. -/
def getInvitationStatus (invitation : Json) : Option (Option InvitationStatus) := do
  if (← invitation.getOrNull "clicked").isTrue then return some .opened
  let deliveryStatus ← invitation.getOrNull "delivery_status"
  if ["delivered"].any deliveryStatus.isText then return some .delivered
  if ["soft_bounce", "hard_bounce", "blocked", "invalid_email", "error"].any deliveryStatus.isText then
    return some .notDelivered
  return none

def invitationProgram (id : Int) (data : Json) : List (Option Statement) :=
  [do
    let status ← getInvitationStatus data
    let deliveredAt ← dateOrNone b (← data.get? "delivered_at")
    return invitationStatement id status deliveredAt]

/-- The upserts of an event. `none` when there is nothing to do, or when the code raises before. -/
def program (t : Tables) (event : Json) : Option (List (Option Statement)) := do
  let model ← (← (← event.get? "meta").get? "model").text?
  if model.toLower = "rdv" then
    let data ← event.get? "data"
    let (rdvsCompanyId, requests) ← matchingRequests b t data
    if requests.isEmpty then none else return appointmentProgram b t rdvsCompanyId requests data
  else if model.toLower = "invitation" then
    let data ← event.get? "data"
    let id ← (← lookupInteger b (← data.get? "id"))
    return invitationProgram b id data
  else none

/-! ## Deliveries -/

structure Request where
  body : List UInt8
  headers : List (String × String)

/-- The body, or that read as `latin-1` and encoded in UTF-8. -/
def Request.utf8Body (r : Request) : List UInt8 :=
  if b.isUtf8 r.body then r.body
  else r.body.flatMap fun byte => if byte < 128 then [byte] else [192 + byte / 64, 128 + byte % 64]

/-- The signature is there and matches. The names of headers, which are kept as `X-Rdvi-Signature`, are compared in lower
case. -/
def Request.isSigned (r : Request) : Bool :=
  match r.headers.find? fun h => h.1.toLower = "x-rdvi-signature" with
  | none => false
  | some (_, given) => given ≠ "" && b.hexdigest (r.utf8Body b) = given

/-- A row of `WebhookEvent`, without `is_processed`. -/
structure WebhookEvent where
  body : Json
  headers : List (String × String)

/-- The event that is created. `none` when the request is refused before. -/
def Request.event? (r : Request) : Option WebhookEvent :=
  if r.isSigned b then (b.loads (r.utf8Body b)).map fun body => ⟨body, r.headers⟩ else none

variable {ι : Type}

/-- The committed rows, and the deliveries. -/
abbrev State (ι : Type) : Type := LockedUpserts.System upserts ι

def eventProgram (t : Tables) (event : WebhookEvent) : Option (List (Option Statement)) := program b t event.body

/-- What a delivery runs. -/
def deliveryProgram (t : Tables) (deliveries : ι → Request) (i : ι) : Option (List (Option Statement)) :=
  ((deliveries i).event? b).bind (eventProgram b t)

/-- The committed events, each with `is_processed`. -/
def events (deliveries : ι → Request) (s : State ι) : List (WebhookEvent × Bool) :=
  s.commits.filterMap fun c => ((deliveries c.1).event? b).map (·, c.2)

end Itou.RdvInsertion
