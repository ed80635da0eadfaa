import Itou.Lib.Dates
import Itou.Lib.Differs

/-!
# Structures and services of data·inclusion and DORA

The tables that `import_structures_and_services` writes. A structure and a service are the row of their `uid`, a reference
item is the row of its source, kind and value.
-/

namespace Itou.Insertion

open Itou.Lib

inductive GenericReferenceItemSource where
  | dataInclusion
  | dora
  deriving DecidableEq

inductive GenericReferenceItemKind where
  | fee
  | fundingLabel
  | mobilization
  | mobilizationBeneficiary
  | mobilizationPublic
  | mobilizationProfessional
  | network
  | publics
  | reception
  | serviceKind
  | source
  | thematic
  deriving DecidableEq

/-- `unique_value_for_kind_and_source`. -/
structure ReferenceKey where
  source : GenericReferenceItemSource
  kind : GenericReferenceItemKind
  value : String
  deriving DecidableEq

structure GenericReferenceItem where
  label : String
  description : Option String
  deriving DecidableEq

/-- `SOURCE_DORA_VALUE`. -/
def doraValue : String := "dora"

/-- A structure. `source` is the value of its source. -/
structure Structure where
  source : String
  siret : String
  email : String
  updatedOn : Int
  isActive : Bool
  deriving DecidableEq

/-- A service. `structureUid` is the `uid` of its structure, `kind` and `fee` are the values of their reference items. -/
structure Service where
  source : String
  structureUid : String
  kind : Option String
  fee : Option String
  isOrientableWithForm : Bool
  doraSyncedAt : Option DateTime
  updatedOn : Int
  isActive : Bool
  deriving DecidableEq

structure Db where
  references : AList fun _ : ReferenceKey => GenericReferenceItem
  structures : AList fun _ : String => Structure
  services : AList fun _ : String => Service

namespace Db

def empty : Db := ⟨∅, ∅, ∅⟩

/-- A row keeps the reference item (`RESTRICT`). -/
def restricts (db : Db) (ref : ReferenceKey) : Bool :=
  db.structures.entries.any (fun s => ref = ⟨.dataInclusion, .source, s.2.source⟩) ||
    db.services.entries.any fun s =>
      ref = ⟨.dataInclusion, .source, s.2.source⟩ ||
        s.2.kind.any (fun kind => ref = ⟨.dataInclusion, .serviceKind, kind⟩) ||
        s.2.fee.any fun fee => ref = ⟨.dataInclusion, .fee, fee⟩

end Db

/-! ## What the APIs answer -/

/-- An item of a data·inclusion reference list. -/
structure ReferenceDoc where
  value : String
  label : String
  description : Option String

/-- An item of the DORA reference data. -/
structure DoraReference where
  kind : String
  value : String
  label : String

/-- An item of the data·inclusion sources. -/
structure SourceItem where
  slug : String
  nom : String
  description : Option String

structure StructureItem where
  id : String
  source : String
  siret : Option String
  courriel : Option String
  dateMaj : Int
  reseauxPorteurs : Option (List String)
  deriving DecidableEq

structure ServiceItem where
  id : String
  source : String
  structureId : String
  type : Option String
  frais : Option String
  dateMaj : Int
  thematiques : Option (List String)
  publics : Option (List String)
  modesAccueil : Option (List String)
  modesMobilisation : Option (List String)
  mobilisablePar : Option (List String)
  deriving DecidableEq

structure DoraService where
  id : String
  isOrientableWithForm : Bool
  fundingLabels : Option (List String)
  beneficiariesAccessModes : Option (List String)
  coachOrientationModes : Option (List String)
  deriving DecidableEq

/-- An item of the structures for which DORA's form is disabled. -/
structure DisabledStructure where
  source : String
  structureId : String
  deriving DecidableEq

/-- All the answers that one run gets. The lists of structures and services come in pages. -/
structure Answers where
  docs : GenericReferenceItemKind → List ReferenceDoc
  referenceData : List DoraReference
  sources : List SourceItem
  structurePages : List (List StructureItem)
  servicePages : List (List ServiceItem)
  emploisServices : List (List DoraService)
  disabledDoraFormDiStructures : List DisabledStructure

end Itou.Insertion
