import Itou.Diffs.Lemmas.Reconciliation

/-!
# Theorems on differences
-/

namespace Itou.Diffs

universe u v w x

namespace CollectionDiffer

variable {α : Type v} {δ : Type w} {ι : Type x} {V : Type u} [DecidableEq α] [DecidableEq V] [PyValue V]
  {d : CollectionDiffer α δ ι V} {current : List (Instance α V)} {comparative : List ι}

/-- Reconciliation, without what it asks of the values and of the watched data. -/
def Reconciles (d : CollectionDiffer α δ ι V) (current : List (Instance α V)) (comparative : List ι) : Prop :=
  (d.currentKeys current).Nodup → ∃ items, d.iter current comparative = some items ∧
    d.Classifies current comparative items ∧
    (d.ConvertersAreIdentities comparative → ∀ create, d.CreatesWithData create items →
      d.iter (d.reconcile create current items) comparative = some [])

theorem not_reconciles_of_raises (hnodup : (d.currentKeys current).Nodup) (h : d.iter current comparative = none) :
    ¬ d.Reconciles current comparative := by
  intro hreconciles
  obtain ⟨items, hiter, -⟩ := hreconciles hnodup
  rw [h] at hiter
  cases hiter

/-- The second iteration yields something. -/
theorem not_reconciles_of_second (hnodup : (d.currentKeys current).Nodup) {items : List (DiffItem α ι V)}
    (hiter : d.iter current comparative = some items)
    (hident : d.ConvertersAreIdentities comparative) (create : DiffItem α ι V → Instance α V)
    (hcreate : d.CreatesWithData create items)
    (hsecond : ((d.iter (d.reconcile create current items) comparative).map List.length) ≠ some 0) :
    ¬ d.Reconciles current comparative := by
  intro hreconciles
  obtain ⟨items', hiter', -, h⟩ := hreconciles hnodup
  rw [hiter, Option.some.injEq] at hiter'
  subst hiter'
  rw [h hident create hcreate] at hsecond
  exact hsecond rfl

end CollectionDiffer

/-! ## Examples -/

/-- The values of the examples. -/
inductive Value where
  | notSet
  | none
  | nan
  | str (s : String)
  | list
  deriving DecidableEq

instance : PyValue Value where
  notSet := .notSet
  hashable v := v ≠ .list
  lt
    | .str s, .str t => some (s < t)
    | _, _ => Option.none
  selfEqual v := v ≠ .nan

/-- The items are dictionaries with the keys `value` and `label`. The field that the label is compared with is given. -/
def exampleDiffer (watched : String) : CollectionDiffer String String (String → Access Value) Value where
  currentKey := ["value"]
  currentDataConverters _ := none
  comparative := ⟨["value"], fun item attr => item attr, fun _ => none⟩
  watchedData := [(watched, "label")]
  watchedData_nodup := List.nodup_singleton watched

def exampleItem (value label : Value) (attr : String) : Access Value :=
  if attr = "value" then .value value else if attr = "label" then .value label else .ignored

/-- `{"value": None}`, of which the key is read as `value.id`. -/
def unreadableItem (_ : String) : Access Value := .raised

/-- The converter of the key raises. -/
def raisingDiffer : CollectionDiffer String String (String → Access Value) Value :=
  { exampleDiffer "label" with comparative := ⟨["value"], fun item attr => item attr, fun _ => some fun _ => none⟩ }

theorem convertersAreIdentities_exampleDiffer (watched : String) (comparative : List (String → Access Value)) :
    (exampleDiffer watched).ConvertersAreIdentities comparative := fun _ _ _ _ _ _ => rfl

end Itou.Diffs
