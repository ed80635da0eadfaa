import Itou.Lib.Json

/-!
# The offers of France Travail

`sync_ft_offers`, from the raw offers on. The search of an appellation and the conversions of the database are parameters,
and a column takes the value of the raw offer as it stands there. A run that raises is undone.
-/

namespace Itou.Companies.SyncFtOffers

open Itou.Lib

/-! ## Raw offers -/

/-- An offer of the API, with its `id` and its other keys. -/
structure RawOffer where
  id : String
  data : Json

/-- A dictionary by `id`, to which an offer is added. -/
def setItem (offers : List RawOffer) (offer : RawOffer) : List RawOffer :=
  if offers.any fun o => o.id = offer.id then offers.map fun o => if o.id = offer.id then offer else o
  else offers ++ [offer]

/-- The two lists merged by `id`. The last offer of an `id` is kept. -/
def rawOffers (rawPecOffers rawEaOffers : List RawOffer) : List RawOffer :=
  (rawPecOffers ++ rawEaOffers).foldl setItem []

/-! ## Job descriptions -/

inductive ContractType where
  | permanent
  | fixedTerm
  | temporary
  | other
  | fixedTermI
  | fixedTermTremplin
  deriving DecidableEq

inductive JobSource where
  | peApi
  deriving DecidableEq

inductive JobSourceTag where
  | ftEaOffer
  | ftPecOffer
  deriving DecidableEq

inductive JobDescriptionSource where
  | manually
  | hiring
  deriving DecidableEq

/-- The columns that `bulk_update` writes, but for `updated_at`. -/
structure Columns where
  appellation : Nat
  createdAt : Json
  customName : Json
  description : Json
  contractType : ContractType
  otherContractType : Json
  location : Nat
  openPositions : Json
  profileDescription : Json
  marketContextDescription : Json
  sourceUrl : Json

structure JobDescription where
  pk : Nat
  columns : Columns
  updatedAt : Int
  company : Nat
  hoursPerWeek : Option Nat
  sourceId : Option String
  sourceKind : Option JobSource
  sourceTags : Option (List JobSourceTag)
  isActive : Bool
  lastEmployerUpdateAt : Option Int
  uiRank : Nat
  isResumeMandatory : Bool
  isQpvMandatory : Bool
  fieldHistory : Json
  creationSource : JobDescriptionSource

/-- The instance that `pe_offer_to_job_description` returns. `updated_at` is no date when the database would refuse it. -/
structure Job where
  sourceId : String
  columns : Columns
  updatedAt : Option Int
  sourceTags : List JobSourceTag

structure City where
  pk : Nat
  codeInsee : String
  postCodes : List String

/-- What the run reads apart from the job descriptions. -/
structure Env where
  /-- The first `Appellation` with the name and the ROME code. `none` when the search raises. -/
  appellation : Json → Json → Option (Option Nat)
  /-- The first one of `autocomplete`. -/
  autocomplete : Json → Json → Option (Option Nat)
  cities : List City
  /-- The text that a `CharField` makes of a value, when it is not `NULL`. -/
  charField : Json → Option String
  datetime : Json → Option Int
  /-- The database takes the columns. The number of open positions is checked apart. -/
  storable : Columns → Bool
  /-- The company with the SIRET of France Travail. -/
  peSiae : Option Nat
  /-- The companies that `JobDescription.objects` leaves out. -/
  isEaOrEatt : Nat → Bool

variable (env : Env)

/-! ## `pe_offer_to_job_description` -/

def peTypeToContractType : List (String × ContractType) :=
  [("CDI", .permanent), ("CDD", .fixedTerm), ("MIS", .temporary), ("SAI", .other), ("CCE", .other), ("FRA", .other),
    ("LIB", .other), ("REP", .other), ("TTI", .temporary), ("DDI", .fixedTermI), ("DDT", .fixedTermTremplin),
    ("DIN", .permanent)]

/-- The city of the INSEE code, or else that of the postal code. `none` when the code raises. -/
def cityOf (lieuTravail : Json) : Option (Option Nat) := do
  let commune ← lieuTravail.get? "commune"
  match env.cities.filter fun c => env.charField commune = some c.codeInsee with
  | [c] => return some c.pk
  | _ :: _ :: _ => none
  | [] =>
      let codePostal ← lieuTravail.get? "codePostal"
      match env.cities.filter fun c => c.postCodes.any fun p => env.charField codePostal = some p with
      | [c] => return some c.pk
      | _ :: _ :: _ => none
      | [] => return none

/-- The `source_tags`. `none` for the `ValueError`. -/
def sourceTags (data : Json) : Option (List JobSourceTag) := do
  let natureContrat ← data.get? "natureContrat"
  let entrepriseAdaptee ← data.get? "entrepriseAdaptee"
  match natureContrat.isText "CUI - CAE", entrepriseAdaptee.isTrue with
  | true, true => return [.ftPecOffer, .ftEaOffer]
  | true, false => return [.ftPecOffer]
  | false, true => return [.ftEaOffer]
  | false, false => none

/-- The columns of the job description. -/
def columnsOf (data : Json) (appellation location : Nat) (sourceUrl : Json) : Option Columns := do
  let createdAt ← data.get? "dateCreation"
  let customName ← data.get? "intitule"
  let description ← data.get? "description"
  let typeContrat ← data.get? "typeContrat"
  let contractType ← (peTypeToContractType.find? fun t => typeContrat.isText t.1).map Prod.snd
  let otherContractType ← data.get? "typeContratLibelle"
  let openPositions ← data.getOrNull "nombrePostes"
  let profileDescription ← data.getD "experienceLibelle" (.string "")
  let marketContextDescription ← (← data.getD "entreprise" (.object [])).getD "nom" (.string "")
  return { appellation, createdAt, customName, description, contractType, otherContractType, location, openPositions,
           profileDescription, marketContextDescription, sourceUrl }

/-- `some none` when the offer is skipped, and `none` when the code raises. -/
def peOfferToJobDescription (offer : RawOffer) : Option (Option Job) := do
  let data := offer.data
  let romeCode ← data.get? "romeCode"
  let appellationLabel ← data.get? "appellationlibelle"
  let appellation ← env.appellation appellationLabel romeCode
  match ← (if appellation.isSome then some appellation else env.autocomplete appellationLabel romeCode) with
  | none => return none
  | some appellation =>
      let lieuTravail ← data.get? "lieuTravail"
      match ← lieuTravail.contains "codePostal" with
      | false => return none
      | true =>
          let sourceUrl ← (← data.getD "origineOffre" (.object [])).getOrNull "urlOrigine"
          if !sourceUrl.isTrue then return none
          else
            match ← cityOf env lieuTravail with
            | none => return none
            | some location =>
                let tags ← sourceTags data
                let columns ← columnsOf data appellation location sourceUrl
                let updatedAt ← data.getD "dateActualisation" columns.createdAt
                return some ⟨offer.id, columns, env.datetime updatedAt, tags⟩

/-- The jobs of the offers that are not skipped. -/
def jobsOf (offers : List RawOffer) : Option (List Job) :=
  (offers.mapM (peOfferToJobDescription env)).map List.reduceOption

/-! ## `handle` -/

def JobDescription.isPeApi (r : JobDescription) : Bool := r.sourceKind = some .peApi

/-- `JobDescription.objects.filter(source_kind=JobSource.PE_API)`. -/
def isInManager (r : JobDescription) : Bool := r.isPeApi && !env.isEaOrEatt r.company

/-- The rows of `pe_offers`: those that no other transaction has locked. -/
def isSeen (locked : Nat → Bool) (r : JobDescription) : Bool := isInManager env r && !locked r.pk

/-- `db_map`: the last row with the key, where there are several, as there can be with an empty `source_id`. -/
def dbObj (locked : Nat → Bool) (rows : List JobDescription) (key : Option String) : Option JobDescription :=
  rows.reverse.find? fun r => isSeen env locked r && r.sourceId = key

/-- `removed_in_coll`. -/
def removedKeys (locked : Nat → Bool) (offers : List RawOffer) (rows : List JobDescription) : List (Option String) :=
  ((rows.filter (isSeen env locked)).map JobDescription.sourceId).filter fun key =>
    !offers.any fun o => some o.id = key

/-- `NOT NULL` on the open positions, and the other columns. -/
def accepts (job : Job) : Bool :=
  (match job.columns.openPositions with
    | .null => false
    | .bool _ | .number _ | .string _ | .array _ | .object _ => true) && env.storable job.columns

/-- The row that `bulk_create` inserts. `auto_now` replaces `updated_at`. -/
def newRow (peSiae : Nat) (now : Int) (pk : Nat) (job : Job) : JobDescription where
  pk := pk
  columns := job.columns
  updatedAt := now
  company := peSiae
  hoursPerWeek := none
  sourceId := some job.sourceId
  sourceKind := some .peApi
  sourceTags := some job.sourceTags
  isActive := true
  lastEmployerUpdateAt := none
  uiRank := 32767
  isResumeMandatory := false
  isQpvMandatory := false
  fieldHistory := .array []
  creationSource := .manually

/-- A primary key greater than all those of the rows. -/
def freshPk (rows : List JobDescription) : Nat := rows.foldr (fun r pk => max (r.pk + 1) pk) 0

def newRows (peSiae : Nat) (now : Int) : Nat → List Job → List JobDescription
  | _, [] => []
  | pk, job :: jobs => newRow peSiae now pk job :: newRows peSiae now (pk + 1) jobs

/-- The unique constraint on `source_kind` and `source_id`. -/
def sourceKey (r : JobDescription) : Option (JobSource × String) :=
  match r.sourceKind, r.sourceId with
  | some kind, some id => if id = "" then none else some (kind, id)
  | _, _ => none

/-- `bulk_update`: the row of the job with its primary key. -/
def updateRow (updated : List (Nat × Columns × Int)) (r : JobDescription) : JobDescription :=
  match updated.find? fun u => u.1 = r.pk with
  | some (_, columns, updatedAt) => { r with columns, updatedAt }
  | none => r

/-- The rows of the table. -/
structure Db where
  rows : List JobDescription
  nodup : (rows.map JobDescription.pk).Nodup
  unique : (rows.filterMap sourceKey).Nodup

/-- `handle`. `none` when the run raises. -/
def handle (now : Int) (locked : Nat → Bool) (rawPecOffers rawEaOffers : List RawOffer) (db : Db) :
    Option (List JobDescription) := do
  let offers := rawOffers rawPecOffers rawEaOffers
  let peSiae ← env.peSiae
  let jobs ← jobsOf env offers
  let removed := removedKeys env locked offers db.rows
  -- `sorted` does not compare `None` with a text.
  if removed.any (·.isNone) && removed.any (·.isSome) then none
  else
    let added := jobs.filter fun job => (dbObj env locked db.rows (some job.sourceId)).isNone
    let updated ← (jobs.filterMap fun job =>
      (dbObj env locked db.rows (some job.sourceId)).map fun r => (r, job)).mapM fun u =>
        u.2.updatedAt.map fun updatedAt => (u.1.pk, u.2.columns, updatedAt)
    let created := db.rows ++ newRows peSiae now (freshPk db.rows) added
    if jobs.all (accepts env) && decide (created.filterMap sourceKey).Nodup then
      return (created.map (updateRow updated)).filter fun r =>
        !(isInManager env r && r.sourceId.isSome && removed.any fun key => key = r.sourceId)
    else none

/-! ## A mirror of the offers -/

/-- The row that `bulk_update` makes of a row. -/
def edited (r : JobDescription) (columns : Columns) (updatedAt : Int) : JobDescription := { r with columns, updatedAt }

/-- The rows mirror the offers. -/
structure Mirrored (env : Env) (now : Int) (rawPecOffers rawEaOffers : List RawOffer) (peSiae : Nat) (jobs : List Job)
    (db db' : Db) : Prop where
  /-- One row for each offer that is converted, as a new one would be. -/
  one : ∀ job ∈ jobs, ∃ pk,
    (db'.rows.filter fun r => r.isPeApi && r.sourceId = some job.sourceId) = [newRow peSiae now pk job]
  none : ∀ r ∈ db'.rows, r.isPeApi = true → ∃ job ∈ jobs, r.sourceId = some job.sourceId
  others : (db'.rows.filter fun r => !r.isPeApi) = db.rows.filter fun r => !r.isPeApi
  /-- A second run, whenever it is, changes nothing. -/
  again : ∀ now', handle env now' (fun _ => false) rawPecOffers rawEaOffers db' = some db'.rows

/-- The run ends, and the rows mirror the offers. -/
def Mirrors (env : Env) (now : Int) (locked : Nat → Bool) (rawPecOffers rawEaOffers : List RawOffer) (db : Db) : Prop :=
  ∃ peSiae jobs, ∃ db' : Db, env.peSiae = some peSiae ∧ jobsOf env (rawOffers rawPecOffers rawEaOffers) = some jobs ∧
    handle env now locked rawPecOffers rawEaOffers db = some db'.rows ∧
    Mirrored env now rawPecOffers rawEaOffers peSiae jobs db db'

/-- The manager sees the row, which has the identifier of a row that is not locked and of no offer. -/
def Removable (env : Env) (locked : Nat → Bool) (offers : List RawOffer) (rows : List JobDescription)
    (r : JobDescription) : Prop :=
  env.isEaOrEatt r.company = false ∧ ∃ id, r.sourceId = some id ∧ (∀ o ∈ offers, o.id ≠ id) ∧
    ∃ s ∈ rows, isSeen env locked s = true ∧ s.sourceId = some id

/-- The row is seen, is the only one of the offer, and is as a new row where `bulk_update` does not write. -/
structure Kept (env : Env) (now : Int) (locked : Nat → Bool) (rows : List JobDescription) (peSiae : Nat)
    (r : JobDescription) (job : Job) : Prop where
  seen : isSeen env locked r = true
  only : ∀ s ∈ rows, s.isPeApi = true → s.sourceId = r.sourceId → s = r
  columns : r = edited (newRow peSiae now r.pk job) r.columns r.updatedAt

/-- The company is there and visible, every offer is converted or skipped, the database takes the offers that are
converted, and these were updated at the time of the run. Every row of the source is to be deleted or to be kept. -/
def InStep (env : Env) (now : Int) (locked : Nat → Bool) (rawPecOffers rawEaOffers : List RawOffer) (db : Db) : Prop :=
  ∃ peSiae jobs, env.peSiae = some peSiae ∧ jobsOf env (rawOffers rawPecOffers rawEaOffers) = some jobs ∧
    (∀ job ∈ jobs, accepts env job = true ∧ job.updatedAt = some now ∧ env.isEaOrEatt peSiae = false) ∧
    ∀ r ∈ db.rows, r.isPeApi = true →
      Removable env locked (rawOffers rawPecOffers rawEaOffers) db.rows r ∨
        ∃ job ∈ jobs, Kept env now locked db.rows peSiae r job

end Itou.Companies.SyncFtOffers
