import Itou.Insertion.Models

/-!
# `import_structures_and_services`

The command of one run. `none` is an exception: the command is atomic, so the database stays as it was.

What a run should leave are the flags that its answers give. The rows that it keeps from earlier runs must say so for
these flags to be the result.
-/

namespace Itou.Insertion

open Itou.Lib

/-- `ArgumentData`. -/
inductive ArgumentData where
  | references
  | structures
  | services
  deriving DecidableEq

/-- `default=list(ArgumentData)`. -/
def ArgumentData.all : List ArgumentData := [.references, .structures, .services]

/-! ## Items of the APIs -/

/-- The loop of `DataInclusionApiItemsIterator`: an identifier that an earlier page had is passed over. -/
def unseenItems {ι : Type} (id : ι → String) : List String → List ι → List ι
  | _, [] => []
  | seenIds, item :: items =>
      if id item ∈ seenIds then unseenItems id seenIds items
      else item :: unseenItems id (id item :: seenIds) items

namespace Answers

def structures (answers : Answers) : List StructureItem := unseenItems (·.id) [] answers.structurePages.flatten

def services (answers : Answers) : List ServiceItem := unseenItems (·.id) [] answers.servicePages.flatten

/-- `dora_services.get`. The last item of an identifier wins. -/
def doraService (answers : Answers) (uid : String) : Option DoraService :=
  answers.emploisServices.flatten.reverse.find? fun item => "dora--" ++ item.id = uid

/-- `disabled_dora_form_di_structures`. -/
def nonOrientableStructures (answers : Answers) : List String :=
  answers.disabledDoraFormDiStructures.map fun r => r.source ++ "--" ++ r.structureId

end Answers

/-! ## Reference data -/

/-- A reference item as an API gives it. DORA has no `description` to watch. -/
structure ReferenceEntry where
  key : ReferenceKey
  label : String
  description : Option (Option String)

def ReferenceEntry.fill (entry : ReferenceEntry) (row : GenericReferenceItem) : GenericReferenceItem where
  label := entry.label
  description := entry.description.getD row.description

def referenceDiffer : Differ ReferenceKey GenericReferenceItem ReferenceEntry where
  key := (·.key)
  changed row entry := entry.fill row != row

/-- `GenericReferenceItem.objects.filter(…)`. -/
def Db.referencesOf (db : Db) (p : ReferenceKey → Bool) : AList fun _ : ReferenceKey => GenericReferenceItem where
  entries := db.references.entries.filter fun e => p e.1
  nodupKeys := db.references.nodupKeys.sublist List.filter_sublist

/-- The body of the loops over a reference collection, with the rows to create later. -/
def importReference :
    Db × List ReferenceEntry → DiffItem ReferenceKey GenericReferenceItem ReferenceEntry →
      Option (Db × List ReferenceEntry)
  | (db, toCreate), .added _ entry => some (db, toCreate ++ [entry])
  | (db, toCreate), .updated key row entry =>
      some ({ db with references := db.references.insert key (entry.fill row) }, toCreate)
  | (db, toCreate), .removed key _ =>
      if db.restricts key then none else some ({ db with references := db.references.erase key }, toCreate)

/-- `GenericReferenceItem.objects.bulk_create`. -/
def Db.bulkCreate (db : Db) (toCreate : List ReferenceEntry) : Option Db :=
  toCreate.foldlM
    (fun db entry =>
      match db.references.lookup entry.key with
      | some _ => none
      | none => some { db with references := db.references.insert entry.key (entry.fill ⟨"", none⟩) })
    db

/-- The kinds of `import_data_inclusion_reference_data`. -/
def dataInclusionKinds : List GenericReferenceItemKind :=
  [.fee, .mobilization, .mobilizationPublic, .network, .publics, .reception, .serviceKind, .thematic]

def ReferenceDoc.entry (kind : GenericReferenceItemKind) (doc : ReferenceDoc) : ReferenceEntry :=
  ⟨⟨.dataInclusion, kind, doc.value⟩, doc.label, some doc.description⟩

def Db.importDataInclusionReferenceData (db : Db) (answers : Answers) : Option Db := do
  let (db, toCreate) ← dataInclusionKinds.foldlM
    (fun (db, toCreate) kind =>
      (referenceDiffer.diff (db.referencesOf fun key => key.source = .dataInclusion && key.kind = kind)
        ((answers.docs kind).map (·.entry kind))).foldlM importReference (db, toCreate))
    (db, [])
  db.bulkCreate toCreate

/-- `dora_kind_mapping`. -/
def doraKind : String → Option GenericReferenceItemKind
  | "beneficiary_access_mode" => some .mobilizationBeneficiary
  | "coach_orientation_mode" => some .mobilizationProfessional
  | "funding_label" => some .fundingLabel
  | _ => none

def DoraReference.entry? (r : DoraReference) : Option ReferenceEntry :=
  (doraKind r.kind).map fun kind => ⟨⟨.dora, kind, r.value⟩, r.label, none⟩

def Db.importDoraReferenceData (db : Db) (answers : Answers) : Option Db := do
  let entries ← answers.referenceData.mapM DoraReference.entry?
  let (db, toCreate) ←
    (referenceDiffer.diff (db.referencesOf fun key => key.source = .dora) entries).foldlM importReference (db, [])
  db.bulkCreate toCreate

def SourceItem.entry (item : SourceItem) : ReferenceEntry :=
  ⟨⟨.dataInclusion, .source, item.slug⟩, item.nom, some item.description⟩

def Db.importSources (db : Db) (answers : Answers) : Option Db := do
  let (db, toCreate) ←
    (referenceDiffer.diff (db.referencesOf fun key => key.source = .dataInclusion && key.kind = .source)
      (answers.sources.map (·.entry))).foldlM importReference (db, [])
  db.bulkCreate toCreate

/-- `reference_data_by_value`. -/
def Db.referenceDataByValue (db : Db) (source : GenericReferenceItemSource) (kind : GenericReferenceItemKind)
    (value : String) : Option ReferenceKey :=
  (db.references.lookup ⟨source, kind, value⟩).map fun _ => ⟨source, kind, value⟩

def Db.getReferenceSetFromData (db : Db) (values : Option (List String)) (source : GenericReferenceItemSource)
    (kind : GenericReferenceItemKind) : Option (List ReferenceKey) :=
  (values.getD []).mapM (db.referenceDataByValue source kind)

/-! ## Rows that the API no longer has -/

/-- The two updates of `is_active` that follow the loop. -/
def updateIsActive {ρ : Type} (isActive : ρ → Bool) (setIsActive : Bool → ρ → ρ) (rows : AList fun _ : String => ρ)
    (removedUids : List String) : AList fun _ : String => ρ :=
  updateWhere (updateWhere rows (fun uid r => isActive r && uid ∈ removedUids) (setIsActive false))
    (fun uid r => !isActive r && uid ∉ removedUids) (setIsActive true)

/-! ## Structures -/

/-- `Structure()`. -/
def Structure.new : Structure where
  source := ""
  siret := ""
  email := ""
  updatedOn := 0
  isActive := true

def Structure.setIsActive (isActive : Bool) (s : Structure) : Structure := { s with isActive }

def structureDiffer : Differ String Structure StructureItem where
  key := (·.id)
  changed row item := row.updatedOn != item.dateMaj

def fillStructureFromApiData (row : Structure) (item : StructureItem) : Structure :=
  { row with source := item.source, siret := item.siret.getD "", email := item.courriel.getD "",
             updatedOn := item.dateMaj }

/-- A structure that is filled and saved, with its networks. -/
def Db.saveStructure (db : Db) (rows : AList fun _ : String => Structure) (uid : String) (row : Structure)
    (item : StructureItem) : Option (AList fun _ : String => Structure) := do
  let _ ← db.referenceDataByValue .dataInclusion .source item.source
  let _ ← db.getReferenceSetFromData item.reseauxPorteurs .dataInclusion .network
  some (rows.insert uid (fillStructureFromApiData row item))

/-- The body of the loop of `import_structures`. -/
def Db.importStructure (db : Db) (rows : AList fun _ : String => Structure) :
    DiffItem String Structure StructureItem → Option (AList fun _ : String => Structure)
  | .added uid item => db.saveStructure rows uid .new item
  | .updated uid row item => db.saveStructure rows uid row item
  | .removed _ _ => some rows

def Db.importStructures (db : Db) (answers : Answers) : Option Db := do
  let diff := structureDiffer.diff db.structures answers.structures
  let rows ← diff.foldlM db.importStructure db.structures
  some { db with structures := updateIsActive (·.isActive) .setIsActive rows (diff.filterMap DiffItem.removedKey?) }

/-! ## Services -/

/-- `Service()`. -/
def Service.new : Service where
  source := ""
  structureUid := ""
  kind := none
  fee := none
  isOrientableWithForm := true
  doraSyncedAt := none
  updatedOn := 0
  isActive := true

def Service.setIsActive (isActive : Bool) (s : Service) : Service := { s with isActive }

def serviceDiffer : Differ String Service ServiceItem where
  key := (·.id)
  changed row item := row.updatedOn != item.dateMaj

def fillServiceFromDoraApiData (service : Service) (doraData : Option DoraService) (now : DateTime) : Service :=
  match if service.source = doraValue then doraData else none with
  | none => { service with doraSyncedAt := none }
  | some data => { service with isOrientableWithForm := data.isOrientableWithForm, doraSyncedAt := some now }

/-- The lookups of `_fill_service_related_fields_from_data`. -/
def Db.serviceRelatedFields (db : Db) (item : ServiceItem) (doraData : Option DoraService) :
    Option (List (List ReferenceKey)) := do
  let dataInclusion ←
    [(item.thematiques, GenericReferenceItemKind.thematic), (item.publics, .publics), (item.modesAccueil, .reception),
      (item.modesMobilisation, .mobilization), (item.mobilisablePar, .mobilizationPublic)].mapM
      fun (values, kind) => db.getReferenceSetFromData values .dataInclusion kind
  match if item.source = doraValue then doraData else none with
  | none => some dataInclusion
  | some data => do
      let dora ←
        [(data.fundingLabels, GenericReferenceItemKind.fundingLabel),
          (data.beneficiariesAccessModes, .mobilizationBeneficiary),
          (data.coachOrientationModes, .mobilizationProfessional)].mapM
          fun (values, kind) => db.getReferenceSetFromData values .dora kind
      some (dataInclusion ++ dora)

def Db.fillServiceFromApiData (db : Db) (row : Service) (item : ServiceItem) (doraData : Option DoraService)
    (now : DateTime) : Service :=
  fillServiceFromDoraApiData
    { row with source := item.source, structureUid := item.structureId,
               kind := item.type.filter fun v => (db.referenceDataByValue .dataInclusion .serviceKind v).isSome,
               fee := item.frais.filter fun v => (db.referenceDataByValue .dataInclusion .fee v).isSome,
               updatedOn := item.dateMaj }
    doraData now

/-- `_fill_and_save_service_from_api_data`. A service whose structure is not found is not saved. -/
def Db.fillAndSaveServiceFromApiData (db : Db) (answers : Answers) (now : DateTime)
    (rows : AList fun _ : String => Service) (uid : String) (row : Service) (item : ServiceItem) :
    Option (AList fun _ : String => Service) := do
  let _ ← db.referenceDataByValue .dataInclusion .source item.source
  match db.structures.lookup item.structureId with
  | none => some rows
  | some _ =>
      let _ ← db.serviceRelatedFields item (answers.doraService item.id)
      some (rows.insert uid (db.fillServiceFromApiData row item (answers.doraService item.id) now))

/-- The body of the loop of `import_services`. -/
def Db.importService (db : Db) (answers : Answers) (now : DateTime) (rows : AList fun _ : String => Service) :
    DiffItem String Service ServiceItem → Option (AList fun _ : String => Service)
  | .added uid item => db.fillAndSaveServiceFromApiData answers now rows uid .new item
  | .updated uid row item => db.fillAndSaveServiceFromApiData answers now rows uid row item
  | .removed _ _ => some rows

def Db.importServices (db : Db) (answers : Answers) (now : DateTime) : Option Db := do
  let diff := serviceDiffer.diff db.services answers.services
  let rows ← diff.foldlM (db.importService answers now) db.services
  some { db with services := updateIsActive (·.isActive) .setIsActive rows (diff.filterMap DiffItem.removedKey?) }

/-! ## Disabled structures -/

/-- `ORIENTATION_SIRENE_BLACKLIST`. -/
def orientationSireneBlacklist : List String :=
  ["303336192", "314307828", "314560822", "314635368", "315190751", "327398152", "380980300", "380992255",
    "381002534", "381016534", "381050996", "381067784", "381202282", "534037254", "534089529", "534092499",
    "534155403", "534172481", "534175179", "534214051", "534216080", "534224282", "534224613", "534738778",
    "535326656", "535363071", "775021801", "775103955", "775189038", "775347875", "775369598", "775513708",
    "775548555", "775549371", "775555642", "775558364", "775561343", "775562531", "775564669", "775573397",
    "775613227", "775613995", "775615529", "775622335", "775624588", "775627383", "775629256", "775634264",
    "775640238", "775653330", "775710791", "775714124", "775716202", "775717333", "775915085", "776115255",
    "776531576", "776656209", "776744005", "776950446", "776986671", "777053125", "777169046", "777187691",
    "777306184", "777461336", "777749375", "777907700", "777927138", "777998881", "778073189", "778213348",
    "778274613", "778297242", "778422832", "778477737", "778542837", "778600130", "778649525", "778714964",
    "778868497", "778953844", "779145598", "779311224", "780004032", "780254702", "780349759", "780428975",
    "780808010", "780860292", "781172366", "781459599", "781847488", "782099121", "782152888", "782437586",
    "782620520", "782993133", "783169196", "783382344", "783806110", "783911951", "784971343", "786019554",
    "786338871", "786448050", "831358262"]

/-- `Substr("siret", 1, 9)`. -/
def siren (siret : String) : String := String.ofList (siret.toList.take 9)

def isBlacklisted (siret : String) : Bool := siren siret ∈ orientationSireneBlacklist

/-- The `uid` of the active structures that meet a condition. -/
def Db.activeStructures (db : Db) (p : Structure → Bool) : List String :=
  (db.structures.entries.filter fun s => s.2.isActive && p s.2).map Sigma.fst

def Db.blacklistedStructures (db : Db) : List String := db.activeStructures fun s => isBlacklisted s.siret

def Db.diStructuresWithoutEmail (db : Db) : List String :=
  db.activeStructures fun s => s.source != doraValue && s.email == ""

def Db.allDisabledStructures (db : Db) (answers : Answers) : List String :=
  answers.nonOrientableStructures ++ db.blacklistedStructures ++ db.diStructuresWithoutEmail

def Db.importDisabledStructures (db : Db) (answers : Answers) : Db :=
  { db with
    services := updateWhere db.services
      (fun _ s => s.isActive && s.structureUid ∈ db.allDisabledStructures answers && s.isOrientableWithForm)
      fun s => { s with isOrientableWithForm := false } }

/-! ## The command -/

def Db.importReferences (db : Db) (answers : Answers) : Option Db := do
  let db ← db.importDataInclusionReferenceData answers
  let db ← db.importDoraReferenceData answers
  db.importSources answers

def Db.handle (data : List ArgumentData) (answers : Answers) (now : DateTime) (db : Db) : Option Db := do
  let db ← if .references ∈ data then db.importReferences answers else some db
  let db ← if .structures ∈ data then db.importStructures answers else some db
  let db ← if .services ∈ data then db.importServices answers now else some db
  if .structures ∈ data || .services ∈ data then some (db.importDisabledStructures answers) else some db

/-- A run of the command that ends. -/
structure Run where
  data : List ArgumentData
  answers : Answers
  now : DateTime

def Db.step (db : Db) (r : Run) : Option Db := db.handle r.data r.answers r.now

/-! ## What a run should leave, whatever happened before -/

/-- A structure that is on the blacklist, or comes without e-mail from another source than DORA. -/
def refusesForm (source siret email : String) : Bool :=
  isBlacklisted siret || (source != doraValue && email == "")

/-- The same, of a structure that is returned and may have a row: a row with its `date_maj` is kept. -/
def StructureItem.refusesForm (item : StructureItem) (row? : Option Structure) : Bool :=
  match row?.filter fun row => row.updatedOn = item.dateMaj with
  | some row => Insertion.refusesForm row.source row.siret row.email
  | none => Insertion.refusesForm item.source (item.siret.getD "") (item.courriel.getD "")

namespace Answers

/-- The DORA item that a service of an answer is filled with. -/
def doraData (answers : Answers) (item : ServiceItem) : Option DoraService :=
  if item.source = doraValue then answers.doraService item.id else none

/-- The structures without form, after the answers: those of the list, those of the blacklist, those of another source
than DORA that have no e-mail. -/
def disabled (answers : Answers) (uid : String) : Bool :=
  uid ∈ answers.nonOrientableStructures ||
    answers.structures.any fun item => item.id = uid && refusesForm item.source (item.siret.getD "") (item.courriel.getD "")

/-- A service is orientable with the form when its structure is not disabled, and DORA says so for its own services. -/
def orientable (answers : Answers) (item : ServiceItem) : Bool :=
  (answers.doraData item).all (·.isOrientableWithForm) && !answers.disabled item.structureId

end Answers

namespace Db

def StructureActive (db : Db) (uid : String) : Prop := ∃ s, db.structures.lookup uid = some s ∧ s.isActive = true

def ServiceActive (db : Db) (uid : String) : Prop := ∃ s, db.services.lookup uid = some s ∧ s.isActive = true

/-- The result is the one of the answers. -/
structure AsAnswered (db : Db) (answers : Answers) : Prop where
  structures : ∀ uid, db.StructureActive uid ↔ uid ∈ answers.structures.map (·.id)
  services : ∀ uid, db.ServiceActive uid ↔ uid ∈ answers.services.map (·.id)
  orientable : ∀ item ∈ answers.services, ∀ s ∈ db.services.lookup item.id,
    s.isOrientableWithForm = answers.orientable item

/-- Two databases with the same active structures and services, and the same services orientable among these. -/
structure SameFlags (db db' : Db) : Prop where
  structures : ∀ uid, db.StructureActive uid ↔ db'.StructureActive uid
  services : ∀ uid, db.ServiceActive uid ↔ db'.ServiceActive uid
  orientable : ∀ uid, db.ServiceActive uid → ∀ s ∈ db.services.lookup uid, ∀ s' ∈ db'.services.lookup uid,
    s.isOrientableWithForm = s'.isOrientableWithForm

/-- Two results of the same answers: they are the same, and are as answered. -/
def NoMemory (db db' : Db) (answers : Answers) : Prop :=
  db.AsAnswered answers ∧ db'.AsAnswered answers ∧ db.SameFlags db'

/-! ## What is kept -/

/-- The structure has a row, or is returned. -/
def knows (db : Db) (answers : Answers) (uid : String) : Bool :=
  (db.structures.lookup uid).isSome || answers.structures.any fun item => item.id = uid

/-- The structures without form, where a structure of the same `date_maj` keeps its row. -/
def disabled (db : Db) (answers : Answers) (uid : String) : Bool :=
  uid ∈ answers.nonOrientableStructures ||
    answers.structures.any fun item => item.id = uid && item.refusesForm (db.structures.lookup uid)

/-- A service is orientable with the form, where its row keeps its structure unless it is filled, and its flag unless it
is filled with a DORA item. -/
def orientable (db : Db) (answers : Answers) (item : ServiceItem) : Bool :=
  match db.services.lookup item.id with
  | none => (answers.doraData item).all (·.isOrientableWithForm) && !db.disabled answers item.structureId
  | some row =>
      if row.updatedOn ≠ item.dateMaj ∧ db.knows answers item.structureId then
        (answers.doraData item).elim row.isOrientableWithForm (·.isOrientableWithForm) &&
          !db.disabled answers item.structureId
      else row.isOrientableWithForm && !db.disabled answers row.structureUid

/-- What the rows say is what the answers say: each service returned has a row or a structure, and the flag, the
structure and the columns of the structure that are kept give the answered flag. -/
structure Current (db : Db) (answers : Answers) : Prop where
  known : ∀ item ∈ answers.services, (db.services.lookup item.id).isSome || db.knows answers item.structureId
  agrees : ∀ item ∈ answers.services, db.orientable answers item = answers.orientable item

end Db

end Itou.Insertion
