import Itou.Lib.Runs
import Itou.Nexus.Models
import Mathlib.Algebra.Group.Nat.Defs
import Mathlib.Logic.Function.Basic

/-!
# Full synchronisations

The functions of `itou/nexus/utils.py`, and the default managers that hide the rows older than the last full
synchronisation. A row comes with the instant at which it is built, which `bulk_create` stores in `updated_at`.
-/

namespace Itou.Nexus

open Itou.Lib

/-- `NexusRessourceSyncStatus`, for one service. -/
structure NexusRessourceSyncStatus where
  inProgressSince : Option Nat
  validSince : Nat
  deriving DecidableEq

/-- `DEFAULT_VALID_SINCE`, in microseconds. -/
def defaultValidSince : Nat := 1764547200 * 10 ^ 6

/-- `clock` is the last instant that the synchronisation of the service has used. -/
structure State where
  users : List NexusUser
  structures : List NexusStructure
  memberships : List NexusMembership
  statuses : Service → Option NexusRessourceSyncStatus
  clock : Service → Nat

def State.empty : State := ⟨[], [], [], fun _ => none, fun _ => 0⟩

section Utils

variable (env : Env) (σ : State) (service : Service)

/-! ## Thresholds -/

/-- `_threshold`, as `with_threshold` annotates it. -/
def State.threshold : Nat := ((σ.statuses service).map (·.validSince)).getD defaultValidSince

/-- The property `threshold` of an instance of the service, whose annotation is given. It raises an `AttributeError` where it
reads `timestamp`, that the model does not have. -/
def State.thresholdProperty (annotated : Option Nat) : Option Nat :=
  match annotated with
  | some threshold => some threshold
  | none =>
      match σ.statuses service with
      | some _ => none
      | none => some defaultValidSince

/-- What the default manager shows of the rows of a table. -/
def State.visible {ρ κ : Type} (m : Resource ρ κ) (rows : List ρ) : List ρ :=
  rows.filter fun r => σ.threshold (m.source r) ≤ m.updatedAt r

/-! ## `init_full_sync` and `complete_full_sync` -/

def State.initFullSync (now : Nat) : State :=
  { σ with
    statuses := Function.update σ.statuses service
      (some { inProgressSince := some now, validSince := σ.threshold service }) }

/-- `complete_full_sync` finds the status to update. -/
def State.completes (startedAt : Nat) : Bool := (σ.statuses service).any (·.inProgressSince = some startedAt)

def State.completeFullSync (startedAt : Nat) : State :=
  if σ.completes service startedAt then
    { σ with
      statuses := Function.update σ.statuses service (some { inProgressSince := none, validSince := startedAt }) }
  else σ

/-! ## Pages -/

def buildUser (data : UserData × Nat) : NexusUser where
  id := serviceId service data.1.sourceId
  source := service
  sourceId := data.1.sourceId
  sourceKind := data.1.sourceKind
  firstName := data.1.firstName
  lastName := data.1.lastName
  email := data.1.email
  phone := data.1.phone
  lastLogin := data.1.lastLogin
  auth := data.1.auth
  kind := env.userKind service data.1.sourceKind
  updatedAt := data.2

def buildStructure (data : StructureData × Nat) : NexusStructure where
  id := serviceId service data.1.sourceId
  source := service
  sourceId := data.1.sourceId
  sourceKind := data.1.sourceKind
  sourceLink := data.1.sourceLink
  siret := data.1.siret
  name := data.1.name
  kind := env.structureKind service data.1.sourceKind
  email := data.1.email
  phone := data.1.phone
  addressLine1 := data.1.addressLine1
  addressLine2 := data.1.addressLine2
  postCode := data.1.postCode
  city := data.1.city
  department := data.1.department
  website := data.1.website
  openingHours := data.1.openingHours
  accessibility := data.1.accessibility
  description := data.1.description
  updatedAt := data.2

def buildMembership (data : MembershipData × Nat) : NexusMembership where
  id := serviceId service data.1.sourceId
  sourceId := data.1.sourceId
  user := serviceId service data.1.userId
  structure_ := serviceId service data.1.structureId
  source := service
  role := data.1.role
  updatedAt := data.2

/-- `sync_users`. It fails with an `IntegrityError` where it gives nothing. -/
def State.syncUsers (nexusUsers : List NexusUser) : Option State :=
  ((nexusUser env).upsert σ.users nexusUsers).map fun users => { σ with users }

/-- `sync_structures`. -/
def State.syncStructures (nexusStructures : List NexusStructure) : Option State :=
  (nexusStructure.upsert σ.structures nexusStructures).map fun structures => { σ with structures }

/-- The user and the structure of the membership are visible. -/
def State.IsKnown (membership : NexusMembership) : Prop :=
  membership.user ∈ (σ.visible (nexusUser env) σ.users).map (·.id) ∧
    membership.structure_ ∈ (σ.visible nexusStructure σ.structures).map (·.id)

instance (membership : NexusMembership) : Decidable (σ.IsKnown env membership) :=
  inferInstanceAs (Decidable (_ ∧ _))

/-- `sync_memberships`. -/
def State.syncMemberships (nexusMemberships : List NexusMembership) : Option State :=
  (nexusMembership.upsert σ.memberships (nexusMemberships.filter (σ.IsKnown env ·))).map fun memberships =>
    { σ with memberships }

end Utils

/-! ## Steps -/

/-- `annotated` tells if the instance comes from a manager that annotates its threshold. -/
inductive Label where
  | initFullSync (service : Service) (now : Nat)
  | syncUsers (service : Service) (page : List (UserData × Nat))
  | syncStructures (service : Service) (page : List (StructureData × Nat))
  | syncMemberships (service : Service) (page : List (MembershipData × Nat))
  | completeFullSync (service : Service) (startedAt : Nat)
  | readThreshold (service : Service) (annotated : Bool)

section Steps

variable (env : Env) (σ : State)

/-- The clock does not go back. -/
def State.tick (service : Service) (instants : List Nat) : Option State :=
  if ∀ t ∈ instants, σ.clock service ≤ t then
    some { σ with clock := Function.update σ.clock service (instants.foldl max (σ.clock service)) }
  else none

/-- The page that a step sends, once the clock has moved on. -/
def State.sync : Label → Option State
  | .syncUsers service page => σ.syncUsers env (page.map (buildUser env service))
  | .syncStructures service page => σ.syncStructures (page.map (buildStructure env service))
  | .syncMemberships service page => σ.syncMemberships env (page.map (buildMembership service))
  | .initFullSync service now => some (σ.initFullSync service now)
  | .completeFullSync service startedAt => some (σ.completeFullSync service startedAt)
  | .readThreshold _ _ => some σ

def Label.service : Label → Service
  | .initFullSync service _ | .syncUsers service _ | .syncStructures service _ | .syncMemberships service _
  | .completeFullSync service _ | .readThreshold service _ => service

def Label.instants : Label → List Nat
  | .initFullSync _ now => [now]
  | .syncUsers _ page => page.map (·.2)
  | .syncStructures _ page => page.map (·.2)
  | .syncMemberships _ page => page.map (·.2)
  | .completeFullSync _ _ | .readThreshold _ _ => []

/-- A page that fails changes nothing, as requests are atomic. -/
def State.step (label : Label) : Option State :=
  (σ.tick label.service label.instants).map fun σ => (σ.sync env label).getD σ

end Steps

/-! ## What is asked of the synchronisation -/

section Guarantees

variable (env : Env) (σ : State)

/-- The users that the step sends for the service. -/
def Label.users (service : Service) : Label → List (List NexusUser)
  | .syncUsers s page => if s = service then [page.map (buildUser env s)] else []
  | _ => []

def Label.structures (service : Service) : Label → List (List NexusStructure)
  | .syncStructures s page => if s = service then [page.map (buildStructure env s)] else []
  | _ => []

def Label.memberships (service : Service) : Label → List (List NexusMembership)
  | .syncMemberships s page => if s = service then [page.map (buildMembership s)] else []
  | _ => []

/-- The page of the step is accepted. -/
def State.Accepts (label : Label) : Prop := ∀ τ ∈ σ.tick label.service label.instants, (τ.sync env label).isSome

instance (label : Label) : Decidable (σ.Accepts env label) :=
  match h : σ.tick label.service label.instants with
  | none => .isTrue (by simp [State.Accepts, h])
  | some τ => decidable_of_iff ((τ.sync env label).isSome = true) (by simp [State.Accepts, h])

/-- The visible rows of the service are those last sent by the steps. -/
structure State.Mirrors (service : Service) (labels : List Label) : Prop where
  users : ∀ r, r ∈ σ.visible (nexusUser env) σ.users ∧ r.source = service ↔
    LastSent NexusUser.id (labels.flatMap (·.users env service)) r
  structures : ∀ r, r ∈ σ.visible nexusStructure σ.structures ∧ r.source = service ↔
    LastSent NexusStructure.id (labels.flatMap (·.structures env service)) r
  memberships : ∀ r, r ∈ σ.visible nexusMembership σ.memberships ∧ r.source = service ↔
    LastSent NexusMembership.id (labels.flatMap (·.memberships service)) r

/-- The rows of the other services, hidden or not, and their thresholds are the same. -/
structure SameElsewhere (service : Service) (σ σ' : State) : Prop where
  users : ∀ r, r.source ≠ service → (r ∈ σ'.users ↔ r ∈ σ.users)
  structures : ∀ r, r.source ≠ service → (r ∈ σ'.structures ↔ r ∈ σ.structures)
  memberships : ∀ r, r.source ≠ service → (r ∈ σ'.memberships ↔ r ∈ σ.memberships)
  statuses : ∀ s, s ≠ service → σ'.statuses s = σ.statuses s

/-- The step leaves the other services alone. -/
def State.LeavesOthers (label : Label) : Prop := ∀ σ' ∈ σ.step env label, SameElsewhere label.service σ σ'

/-- The property `threshold` gives the value of the annotation. -/
def State.ThresholdRight : Label → Prop
  | .readThreshold service annotated =>
      σ.thresholdProperty service (if annotated then some (σ.threshold service) else none) =
        some (σ.threshold service)
  | _ => True

/-! ## Careful steps -/

/-- A run starts after all that the service has sent. A page gives no value of a unique constraint to a row as long as
another row has it, hidden or not, and memberships are those of users and structures that are visible. A threshold is read
from an annotation, or without any status. -/
def State.Careful : Label → Prop
  | .initFullSync service now => σ.clock service < now
  | .syncUsers service page => (nexusUser env).Orderly σ.users (page.map (buildUser env service))
  | .syncStructures service page => nexusStructure.Orderly σ.structures (page.map (buildStructure env service))
  | .syncMemberships service page => (∀ data ∈ page, σ.IsKnown env (buildMembership service data)) ∧
      nexusMembership.Orderly σ.memberships (page.map (buildMembership service))
  | .completeFullSync _ _ => True
  | .readThreshold service annotated => annotated = true ∨ σ.statuses service = none

end Guarantees

end Itou.Nexus
