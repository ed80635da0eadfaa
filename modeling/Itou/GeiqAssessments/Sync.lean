import Mathlib.Data.List.Sort
import Mathlib.Data.List.Dedup

/-!
# The synchronization with the label API

`sync_to_db` compares the rows of a query set with the items of the API, by `label_id`, and writes the differences. The
same `label_id` may be in several assessments: the rows to update are found by their primary keys, and those to delete by
their `label_id` alone.
-/

namespace Itou.GeiqAssessments.Sync

universe u v w x y

/-- A row of a synchronized table. `owner` stands for the columns that do not come from the API. -/
structure LabelRow (F : Type u) (V : Type v) (D : Type w) (σ : Type x) where
  pk : Nat
  labelId : Int
  values : F → V
  otherData : D
  owner : σ

/-- An item of the API: the values under the keys that the mapping names, and what is left. -/
structure LabelItem (K : Type y) (V : Type v) (D : Type w) where
  id : Int
  value : K → V
  otherData : D

/-- `mapping`, but for `label_id`. -/
structure Mapping (F : Type u) (K : Type y) where
  fields : List F
  mem_fields : ∀ f, f ∈ fields
  labelKey : F → K

variable {F : Type u} {V : Type v} {D : Type w} {σ : Type x} {K : Type y}

/-! ## `yield_sync_diff` -/

inductive DiffItem (F : Type u) (K : Type y) (V : Type v) (D : Type w) (σ : Type x) where
  | edition (row : LabelRow F V D σ) (item : LabelItem K V D)
  | addition (item : LabelItem K V D)
  | deletion (key : Int)

/-- `sorted` of a set. -/
def sortedKeys (keys : List Int) : List Int := keys.dedup.insertionSort (· ≤ ·)

/-- The last item of a key is kept. -/
def dataMap (items : List (LabelItem K V D)) (key : Int) : Option (LabelItem K V D) :=
  items.reverse.find? fun item => item.id = key

def dbMap (queryset : List (LabelRow F V D σ)) (key : Int) : Option (LabelRow F V D σ) :=
  queryset.reverse.find? fun row => row.labelId = key

section Diff

variable [DecidableEq V] [DecidableEq D] (mapping : Mapping F K)

/-- One difference for each field that is not the same. -/
def editions (row : LabelRow F V D σ) (item : LabelItem K V D) : List (DiffItem F K V D σ) :=
  ((mapping.fields.filter fun f => row.values f ≠ item.value (mapping.labelKey f)).map fun _ => .edition row item) ++
    if row.otherData ≠ item.otherData then [.edition row item] else []

def alreadyThere (items : List (LabelItem K V D)) (queryset : List (LabelRow F V D σ)) : List Int :=
  sortedKeys ((items.map LabelItem.id).filter (· ∈ queryset.map LabelRow.labelId))

def addedByColl (items : List (LabelItem K V D)) (queryset : List (LabelRow F V D σ)) : List Int :=
  sortedKeys ((items.map LabelItem.id).filter (· ∉ queryset.map LabelRow.labelId))

def removedInColl (items : List (LabelItem K V D)) (queryset : List (LabelRow F V D σ)) : List Int :=
  sortedKeys ((queryset.map LabelRow.labelId).filter (· ∉ items.map LabelItem.id))

/-- The differences of the items that the query set has. -/
def editionsOf (items : List (LabelItem K V D)) (queryset : List (LabelRow F V D σ)) : List (DiffItem F K V D σ) :=
  (alreadyThere items queryset).flatMap fun key =>
    match dbMap queryset key, dataMap items key with
    | some row, some item => editions mapping row item
    | _, _ => []

def yieldSyncDiff (items : List (LabelItem K V D)) (queryset : List (LabelRow F V D σ)) : List (DiffItem F K V D σ) :=
  editionsOf mapping items queryset ++
  (addedByColl items queryset).filterMap (fun key => (dataMap items key).map .addition) ++
  (removedInColl items queryset).map .deletion

end Diff

/-! ## `sync_to_db` -/

def DiffItem.toCreate? : DiffItem F K V D σ → Option (LabelItem K V D)
  | addition item => some item
  | edition _ _ | deletion _ => none

def DiffItem.toUpdate? : DiffItem F K V D σ → Option (Nat × LabelItem K V D)
  | edition row item => some (row.pk, item)
  | addition _ | deletion _ => none

def DiffItem.toDelete? : DiffItem F K V D σ → Option Int
  | deletion key => some key
  | addition _ | edition _ _ => none

/-- `data_to_django_obj`, of which `owner` gives the other columns. -/
def labelDataToDjango (mapping : Mapping F K) (owner : LabelItem K V D → σ) (pk : Nat) (item : LabelItem K V D) :
    LabelRow F V D σ where
  pk := pk
  labelId := item.id
  values f := item.value (mapping.labelKey f)
  otherData := item.otherData
  owner := owner item

/-- A primary key that no row has. -/
def freshPk (table : List (LabelRow F V D σ)) : Nat := (table.map fun row => row.pk + 1).foldr max 0

/-- What `bulk_create` adds to the table. -/
def createdRows (mapping : Mapping F K) (owner : LabelItem K V D → σ) (table : List (LabelRow F V D σ))
    (items : List (LabelItem K V D)) : List (LabelRow F V D σ) :=
  items.mapIdx fun i item => labelDataToDjango mapping owner (freshPk table + i) item

/-- `label_id` and the columns that do not come from the API are not written. -/
def bulkUpdate (mapping : Mapping F K) (objs : List (Nat × LabelItem K V D)) (row : LabelRow F V D σ) :
    LabelRow F V D σ :=
  match objs.find? fun obj => obj.1 = row.pk with
  | some (_, item) => { row with values f := item.value (mapping.labelKey f), otherData := item.otherData }
  | none => row

/-- The table afterwards, and what `sync_to_db` returns. -/
structure Result (F : Type u) (K : Type y) (V : Type v) (D : Type w) (σ : Type x) where
  table : List (LabelRow F V D σ)
  objToCreate : List (LabelItem K V D)
  objToUpdate : List (Nat × LabelItem K V D)
  objToDelete : List Int

def queryset (p : σ → Bool) (table : List (LabelRow F V D σ)) : List (LabelRow F V D σ) :=
  table.filter fun row => p row.owner

/-- `sync_to_db`, on the query set of the rows whose owner meets `p`. -/
def syncToDb [DecidableEq V] [DecidableEq D] (mapping : Mapping F K) (owner : LabelItem K V D → σ) (p : σ → Bool)
    (withDelete : Bool) (items : List (LabelItem K V D)) (table : List (LabelRow F V D σ)) : Result F K V D σ :=
  let diff := yieldSyncDiff mapping items (queryset p table)
  let objToCreate := diff.filterMap DiffItem.toCreate?
  let objToUpdate := diff.filterMap DiffItem.toUpdate?
  let objToDelete := diff.filterMap DiffItem.toDelete?
  let updated := (table ++ createdRows mapping owner table objToCreate).map (bulkUpdate mapping objToUpdate)
  { table := if withDelete then updated.filter fun row => row.labelId ∉ objToDelete else updated
    objToCreate, objToUpdate, objToDelete }

/-! ## The employees of an assessment -/

inductive EmployeeField where
  | lastName
  | firstName
  | title
  | birthdate
  | allowanceAmount
  deriving DecidableEq

/-- `EMPLOYEE_MAPPING`. -/
def employeeMapping : Mapping EmployeeField String where
  fields := [.lastName, .firstName, .title, .birthdate, .allowanceAmount]
  mem_fields f := by cases f <;> decide
  labelKey
    | .lastName => "nom"
    | .firstName => "prenom"
    | .title => "sexe"
    | .birthdate => "date_naissance"
    | .allowanceAmount => "montant_aide"

structure EmployeeOwner where
  assessment : Nat
  allowanceGrantedPreviousYear : Bool
  deriving DecidableEq

/-- The other columns that `employee_data_to_django` sets. -/
def employeeOwner (assessment : Nat) (grantedPreviousYear : List Int) (item : LabelItem K V D) : EmployeeOwner :=
  ⟨assessment, item.id ∈ grantedPreviousYear⟩

/-- What `sync_employee_and_contracts` does of the employees. -/
def syncEmployees [DecidableEq V] [DecidableEq D] (assessment : Nat) (grantedPreviousYear : List Int)
    (items : List (LabelItem String V D)) (table : List (LabelRow EmployeeField V D EmployeeOwner)) :
    Result EmployeeField String V D EmployeeOwner :=
  syncToDb employeeMapping (employeeOwner assessment grantedPreviousYear) (fun owner => owner.assessment = assessment)
    true items table

/-! ## A mirror of the API -/

/-- The row has the data of the item. -/
def Matches (mapping : Mapping F K) (row : LabelRow F V D σ) (item : LabelItem K V D) : Prop :=
  row.labelId = item.id ∧ (∀ f, row.values f = item.value (mapping.labelKey f)) ∧ row.otherData = item.otherData

section Mirrors

variable [DecidableEq V] [DecidableEq D] (mapping : Mapping F K) (owner : LabelItem K V D → σ) (p : σ → Bool)
  (items : List (LabelItem K V D)) (table : List (LabelRow F V D σ))

/-- The query set afterwards has one row for each item, the other rows are the same, and a second run does nothing. -/
structure Mirrors (table' : List (LabelRow F V D σ)) : Prop where
  one : ((queryset p table').map LabelRow.labelId).Perm (items.map LabelItem.id)
  data : ∀ row ∈ queryset p table', ∃ item ∈ items, Matches mapping row item
  others : table'.filter (fun row => !p row.owner) = table.filter fun row => !p row.owner
  created : (syncToDb mapping owner p true items table').objToCreate = []
  updated : (syncToDb mapping owner p true items table').objToUpdate = []
  deleted : (syncToDb mapping owner p true items table').objToDelete = []

/-- No two rows of the query set have the `label_id` of one item, and the items have the `label_id` of each row of the
query set that another row of the table has. -/
structure IsApart : Prop where
  unique : (((queryset p table).filter fun row => row.labelId ∈ items.map LabelItem.id).map LabelRow.labelId).Nodup
  apart : ∀ row ∈ table, p row.owner = false → ∀ row' ∈ queryset p table, row'.labelId = row.labelId →
    row.labelId ∈ items.map LabelItem.id

end Mirrors

end Itou.GeiqAssessments.Sync
