import Itou.Lib.Upserts

/-!
# Resources of Nexus

What a service sends to Nexus: users, structures and memberships. The identifier of a row is built from the service and
from the identifier that the service gives to the row.
-/

namespace Itou.Nexus

open Itou.Lib

abbrev Text := List Char

inductive Service where
  | dataInclusion
  | dora
  | emplois
  | marche
  | monRecap
  | pilotage
  deriving DecidableEq

inductive Auth where
  | django
  | magicLink
  | inclusionConnect
  | proConnect
  deriving DecidableEq

inductive Role where
  | administrator
  | collaborator
  deriving DecidableEq

/-- `SERVICE_MAPPING`. -/
def serviceMapping : Service → Text
  | .dora => ['d', 'o', 'r', 'a']
  | .emplois => ['e', 'm', 'p', 'l', 'o', 'i', 's', '-', 'd', 'e', '-', 'l', 'i', 'n', 'c', 'l', 'u', 's', 'i', 'o', 'n']
  | .marche => ['l', 'e', '-', 'm', 'a', 'r', 'c', 'h', 'é']
  | .dataInclusion => ['d', 'a', 't', 'a', '-', 'i', 'n', 'c', 'l', 'u', 's', 'i', 'o', 'n']
  | .pilotage => ['p', 'i', 'l', 'o', 't', 'a', 'g', 'e']
  | .monRecap => ['m', 'o', 'n', '-', 'r', 'e', 'c', 'a', 'p']

/-- `service_id`. -/
def serviceId (service : Service) (id : Text) : Text := serviceMapping service ++ ['-', '-'] ++ id

/-! ## Rows -/

structure NexusUser where
  id : Text
  source : Service
  sourceId : Text
  sourceKind : Text
  firstName : Text
  lastName : Text
  email : Text
  phone : Text
  lastLogin : Option Nat
  auth : Auth
  kind : Text
  updatedAt : Nat
  deriving DecidableEq

structure NexusStructure where
  id : Text
  source : Service
  sourceId : Text
  sourceKind : Text
  sourceLink : Text
  siret : Option Text
  name : Text
  kind : Text
  email : Text
  phone : Text
  addressLine1 : Text
  addressLine2 : Text
  postCode : Text
  city : Text
  department : Text
  website : Text
  openingHours : Text
  accessibility : Text
  description : Text
  updatedAt : Nat
  deriving DecidableEq

structure NexusMembership where
  id : Text
  sourceId : Text
  user : Text
  structure_ : Text
  source : Service
  role : Role
  updatedAt : Nat
  deriving DecidableEq

/-! ## Data of the API -/

/-- The valid data of a `UserSerializer`. -/
structure UserData where
  sourceId : Text
  sourceKind : Text
  firstName : Text
  lastName : Text
  email : Text
  phone : Text
  lastLogin : Option Nat
  auth : Auth
  deriving DecidableEq

/-- The valid data of a `StructureSerializer`. -/
structure StructureData where
  sourceId : Text
  sourceKind : Text
  siret : Option Text
  name : Text
  phone : Text
  email : Text
  addressLine1 : Text
  addressLine2 : Text
  postCode : Text
  city : Text
  department : Text
  website : Text
  openingHours : Text
  accessibility : Text
  description : Text
  sourceLink : Text
  deriving DecidableEq

/-- The valid data of a `MembershipSerializer`. -/
structure MembershipData where
  sourceId : Text
  userId : Text
  structureId : Text
  role : Role
  deriving DecidableEq

/-- The lower case of the type `citext`, `USER_KIND_MAPPING` and `STRUCTURE_KIND_MAPPING`. -/
structure Env where
  citext : Text → Text
  userKind : Service → Text → Text
  structureKind : Service → Text → Text

/-! ## Resources -/

/-- What `NexusModelMixin` and `bulk_create` rely on. The columns that an update leaves alone are determined by the
identifier, when it is built from them. -/
structure Resource (ρ κ : Type) extends Upsert ρ Text κ where
  source : ρ → Service
  sourceId : ρ → Text
  updatedAt : ρ → Nat
  update_eq : ∀ s r, pk s = pk r → source s = source r → sourceId s = sourceId r → update s r = r

/-- `sync_users` updates all the columns but `id` and `source`. `email_source_unique` compares e-mails without their
case. -/
def nexusUser (env : Env) : Resource NexusUser (Text × Service) where
  pk := NexusUser.id
  key user := some (env.citext user.email, user.source)
  update old new := { new with id := old.id, source := old.source }
  source := NexusUser.source
  sourceId := NexusUser.sourceId
  updatedAt := NexusUser.updatedAt
  update_eq := by
    rintro s r hid hsource -
    rw [hid, hsource]

/-- `sync_structures` updates all the columns but `id` and `source`. There is no unique constraint. -/
def nexusStructure : Resource NexusStructure Unit where
  pk := NexusStructure.id
  key _ := none
  update old new := { new with id := old.id, source := old.source }
  source := NexusStructure.source
  sourceId := NexusStructure.sourceId
  updatedAt := NexusStructure.updatedAt
  update_eq := by
    rintro s r hid hsource -
    rw [hid, hsource]

/-- `sync_memberships` updates `role`, `updated_at`, `user` and `structure`. The unique constraint is
`user_structure_unique`. -/
def nexusMembership : Resource NexusMembership (Text × Text) where
  pk := NexusMembership.id
  key membership := some (membership.user, membership.structure_)
  update old new :=
    { old with role := new.role, updatedAt := new.updatedAt, user := new.user, structure_ := new.structure_ }
  source := NexusMembership.source
  sourceId := NexusMembership.sourceId
  updatedAt := NexusMembership.updatedAt
  update_eq := by
    rintro s r hid hsource hsourceId
    cases s
    cases r
    simp_all

end Itou.Nexus
