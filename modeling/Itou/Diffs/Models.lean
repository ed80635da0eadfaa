import Mathlib.Data.List.Dedup
import Mathlib.Data.List.ReduceOption
import Mathlib.Logic.Function.Basic

/-!
# `CollectionDiffer`

The differences between a collection of instances and a collection of dictionaries, and `apply_diff`. The values are
those of Python: a key has to be hashable, some values cannot be compared with each other, and `nan` differs from
itself. Accessors and converters may raise.
-/

namespace Itou.Diffs

universe u v w x

/-- Python values. Equal ones are those that are identical or equal, as tuples and dictionaries compare them; `lt` is
`none` when the comparison raises `TypeError`. -/
class PyValue (V : Type u) where
  notSet : V
  hashable : V → Bool
  lt : V → V → Option Bool
  /-- `value == value`, which is false of `nan`. -/
  selfEqual : V → Bool

variable {α : Type v} {δ : Type w} {ι : Type x} {V : Type u} [DecidableEq α] [DecidableEq V] [PyValue V]

/-- `!=`. -/
def PyValue.ne (x y : V) : Bool := x ≠ y || !PyValue.selfEqual x

/-! ## Keys -/

abbrev ItemKey (V : Type u) : Type u := List V

/-- `<` on tuples: the first components that differ are compared. -/
def ItemKey.lt : ItemKey V → ItemKey V → Option Bool
  | [], [] => some false
  | [], _ :: _ => some true
  | _ :: _, [] => some false
  | x :: xs, y :: ys => if x = y then ItemKey.lt xs ys else PyValue.lt x y

/-- Put a key at its place. -/
def insertSorted (key : ItemKey V) : List (ItemKey V) → Option (List (ItemKey V))
  | [] => some [key]
  | other :: keys =>
      match key.lt other with
      | none => none
      | some true => some (key :: other :: keys)
      | some false => (insertSorted key keys).map (other :: ·)

/-- `sorted`, which raises when a comparison does. -/
def sorted : List (ItemKey V) → Option (List (ItemKey V))
  | [] => some []
  | key :: keys => (sorted keys).bind (insertSorted key)

/-! ## Strategies -/

/-- What an accessor does: it gives a value, or raises an exception that is ignored or not. `dotteditemgetter("a.b")`
raises `KeyError`, which is ignored, on a dictionary without the key `a`, and `TypeError`, which is not, on one where
`a` is `None`. -/
inductive Access (V : Type u) where
  | value (v : V)
  | ignored
  | raised
  deriving DecidableEq

/-- `CollectionStrategy`. A converter gives `none` when it raises. -/
structure CollectionStrategy (α : Type v) (ι : Type x) (V : Type u) where
  key : List α
  accessor : ι → α → Access V
  converters : α → Option (V → Option V)

namespace CollectionStrategy

variable (s : CollectionStrategy α ι V) (item : ι)

/-- `converters.get(attr_key, identity)`. -/
def converter (attrKey : α) : V → Option V := (s.converters attrKey).getD some

/-- `convert_data`. `none` when it raises. -/
def convertData (attrKey : α) : Option V :=
  match s.accessor item attrKey with
  | .value v => s.converter attrKey v
  | .ignored => s.converter attrKey PyValue.notSet
  | .raised => none

/-- `make_key`. `none` when it raises. -/
def makeKey : Option (ItemKey V) := s.key.mapM (s.convertData item)

end CollectionStrategy

/-! ## The differences -/

/-- An instance of a model, by its attributes. -/
abbrev Instance (α : Type v) (V : Type u) : Type (max u v) := α → Access V

inductive DiffItemKind where
  | added
  | updated
  | removed
  deriving DecidableEq

structure DataDiff (V : Type u) where
  before : Option V
  after : V
  deriving DecidableEq

/-- `DiffItem`. The data of a removed item is empty here, and `None` in the source. -/
structure DiffItem (α : Type v) (ι : Type x) (V : Type u) where
  kind : DiffItemKind
  key : ItemKey V
  currentItem : Option (Instance α V)
  comparativeItem : Option ι
  data : List (α × DataDiff V)

/-- `CollectionDiffer`, of which `watchedData` is a mapping. -/
structure CollectionDiffer (α : Type v) (δ : Type w) (ι : Type x) (V : Type u) where
  currentKey : List α
  currentDataConverters : α → Option (V → Option V)
  comparative : CollectionStrategy δ ι V
  watchedData : List (α × δ)
  watchedData_nodup : (watchedData.map Prod.fst).Nodup

namespace CollectionDiffer

variable (d : CollectionDiffer α δ ι V) (current : List (Instance α V)) (comparative : List ι)

/-- `current_collection_strategy`, of which the accessor is `attrgetter`. -/
def currentStrategy : CollectionStrategy α (Instance α V) V where
  key := d.currentKey
  accessor item attr := item attr
  converters := d.currentDataConverters

/-- The keys of the current items that have one. -/
def currentKeys : List (ItemKey V) := current.filterMap d.currentStrategy.makeKey

/-- The keys of the comparative items that have one. -/
def comparativeKeys : List (ItemKey V) := comparative.filterMap d.comparative.makeKey

/-- `current_collection_data`. The last item of a key is kept. -/
def currentData (key : ItemKey V) : Option (Instance α V) :=
  current.reverse.find? fun item => d.currentStrategy.makeKey item = some key

/-- `_get_added_data`. -/
def getAddedData (comparativeItem : ι) : Option (List (α × DataDiff V)) :=
  d.watchedData.mapM fun attrs =>
    (d.comparative.convertData comparativeItem attrs.2).map fun after => (attrs.1, ⟨none, after⟩)

/-- `_get_updated_data`. -/
def getUpdatedData (currentItem : Instance α V) (comparativeItem : ι) : Option (List (α × DataDiff V)) :=
  Option.map List.reduceOption <| d.watchedData.mapM fun attrs =>
    (d.currentStrategy.convertData currentItem attrs.1).bind fun before =>
      (d.comparative.convertData comparativeItem attrs.2).map fun after =>
        if PyValue.ne before after then some (attrs.1, ⟨some before, after⟩) else none

/-- What the loop yields for an item. -/
def compare (comparativeItem : ι) : Option (Option (DiffItem α ι V)) :=
  (d.comparative.makeKey comparativeItem).bind fun key =>
    match d.currentData current key with
    | none => (d.getAddedData comparativeItem).map fun data =>
        some ⟨.added, key, none, some comparativeItem, data⟩
    | some currentItem => (d.getUpdatedData currentItem comparativeItem).map fun updatedData =>
        if updatedData ≠ [] then some ⟨.updated, key, some currentItem, some comparativeItem, updatedData⟩
        else none

/-- `keys_removed`. -/
def keysRemoved : List (ItemKey V) :=
  (d.currentKeys current).dedup.filter fun key => key ∉ d.comparativeKeys comparative

/-- `list(differ)`. `none` when it raises: an accessor or a converter does, a key cannot be hashed, or the removed ones
cannot be sorted. -/
def iter : Option (List (DiffItem α ι V)) :=
  (current.mapM d.currentStrategy.makeKey).bind fun currentKeys =>
    (comparative.mapM d.comparative.makeKey).bind fun comparativeKeys =>
      if (currentKeys ++ comparativeKeys).all fun key => key.all PyValue.hashable then
        (comparative.mapM (d.compare current)).bind fun differences =>
          (sorted (d.keysRemoved current comparative)).map fun removed =>
            differences.reduceOption ++
              removed.map fun key => ⟨.removed, key, d.currentData current key, none, []⟩
      else none

end CollectionDiffer

/-! ## Reconciliation -/

/-- `apply_diff`, with `setattr`. -/
def applyDiff (item : Instance α V) (diffItem : DiffItem α ι V) : Instance α V :=
  diffItem.data.foldl (fun item entry => Function.update item entry.1 (.value entry.2.after)) item

/-- The collection once the differences are applied: the removed items are deleted, the updated ones are changed in the
order of the differences, and the added ones are created. The keys identify the items. -/
def CollectionDiffer.reconcile (d : CollectionDiffer α δ ι V) (create : DiffItem α ι V → Instance α V)
    (current : List (Instance α V)) (items : List (DiffItem α ι V)) : List (Instance α V) :=
  let ofKind kind := items.filter fun item => item.kind = kind
  ((current.filter fun item =>
      (d.currentStrategy.makeKey item).all fun key => key ∉ (ofKind .removed).map (·.key)).map fun item =>
    ((ofKind .updated).filter fun diffItem => d.currentStrategy.makeKey item = some diffItem.key).foldl
      applyDiff item) ++
    (ofKind .added).map create

/-! ## The laws -/

namespace CollectionDiffer

/-- The kind of each key. -/
structure Classifies (d : CollectionDiffer α δ ι V) (current : List (Instance α V)) (comparative : List ι)
    (items : List (DiffItem α ι V)) : Prop where
  added : ∀ key, (∃ x ∈ items, x.kind = .added ∧ x.key = key) ↔
    key ∈ d.comparativeKeys comparative ∧ key ∉ d.currentKeys current
  removed : ∀ key, (∃ x ∈ items, x.kind = .removed ∧ x.key = key) ↔
    key ∈ d.currentKeys current ∧ key ∉ d.comparativeKeys comparative
  updated : ∀ key, (∃ x ∈ items, x.kind = .updated ∧ x.key = key) ↔
    ∃ item ∈ current, ∃ c ∈ comparative, d.currentStrategy.makeKey item = some key ∧
      d.comparative.makeKey c = some key ∧ ∃ attrs ∈ d.watchedData,
        ∃ before ∈ d.currentStrategy.convertData item attrs.1, ∃ after ∈ d.comparative.convertData c attrs.2,
          PyValue.ne before after = true
  oneKind : ∀ x ∈ items, ∀ y ∈ items, x.key = y.key → x.kind = y.kind

/-- Nothing raises: the keys of all the items and the watched data of those that are compared can be read and converted,
the keys can be hashed, and the removed ones can be compared with each other. -/
structure Regular (d : CollectionDiffer α δ ι V) (current : List (Instance α V)) (comparative : List ι) : Prop where
  currentKey : ∀ item ∈ current, (d.currentStrategy.makeKey item).isSome = true
  comparativeKey : ∀ c ∈ comparative, (d.comparative.makeKey c).isSome = true
  currentData : ∀ item ∈ current, ∀ key ∈ d.currentStrategy.makeKey item, key ∈ d.comparativeKeys comparative →
    ∀ attrs ∈ d.watchedData, (d.currentStrategy.convertData item attrs.1).isSome = true
  comparativeData : ∀ c ∈ comparative, ∀ attrs ∈ d.watchedData, (d.comparative.convertData c attrs.2).isSome = true
  hashable : ∀ key ∈ d.currentKeys current ++ d.comparativeKeys comparative, key.all PyValue.hashable
  comparable : ∀ key ∈ d.keysRemoved current comparative, ∀ other ∈ d.keysRemoved current comparative, key ≠ other →
    (key.lt other).isSome

/-- The converters of the current items keep the values that are converted. -/
def ConvertersAreIdentities (d : CollectionDiffer α δ ι V) (comparative : List ι) : Prop :=
  ∀ attrs ∈ d.watchedData, ∀ c ∈ comparative, ∀ v ∈ d.comparative.convertData c attrs.2,
    d.currentStrategy.converter attrs.1 v = some v

/-- Items with one key have the same watched values. -/
def RepeatedKeysAgree (d : CollectionDiffer α δ ι V) (comparative : List ι) : Prop :=
  ∀ c ∈ comparative, ∀ c' ∈ comparative, d.comparative.makeKey c = d.comparative.makeKey c' →
    ∀ attrs ∈ d.watchedData, d.comparative.convertData c attrs.2 = d.comparative.convertData c' attrs.2

/-- The watched values equal themselves: none of them is `nan`. -/
def ValuesEqualThemselves (d : CollectionDiffer α δ ι V) (comparative : List ι) : Prop :=
  ∀ c ∈ comparative, ∀ attrs ∈ d.watchedData, ∀ v ∈ d.comparative.convertData c attrs.2,
    PyValue.selfEqual v = true

/-- An attribute of the key is not watched with another field than that of the key. -/
def KeysAreKept (d : CollectionDiffer α δ ι V) : Prop :=
  ∀ parts ∈ d.currentKey.zip d.comparative.key, ∀ attrs ∈ d.watchedData, attrs.1 = parts.1 → attrs.2 = parts.2

/-- An item is created with the key and the data of its difference. -/
structure CreatesWithData (d : CollectionDiffer α δ ι V) (create : DiffItem α ι V → Instance α V)
    (items : List (DiffItem α ι V)) : Prop where
  key : ∀ x ∈ items, x.kind = .added → d.currentStrategy.makeKey (create x) = some x.key
  data : ∀ x ∈ items, x.kind = .added → ∀ entry ∈ x.data, create x entry.1 = .value entry.2.after

end CollectionDiffer

end Itou.Diffs
