import Itou.Diffs.Models
import Itou.Lib.Outcomes
import Mathlib.Data.List.Pairwise

/-!
# Reconciliation

An iteration that does not raise puts each key under one kind. Once the differences are applied, the items have the keys
and the converted values of the comparative collection.
-/

namespace Itou.Diffs

open Itou.Lib

universe u v w x

variable {α : Type v} {δ : Type w} {ι : Type x} {V : Type u} [DecidableEq V] [PyValue V]

theorem PyValue.ne_eq_false {x y : V} : PyValue.ne x y = false ↔ x = y ∧ PyValue.selfEqual x = true := by
  simp [PyValue.ne]

/-! ## Sorting -/

theorem ItemKey.lt_self (key : ItemKey V) : key.lt key = some false := by
  induction key with
  | nil => rfl
  | cons v key ih => rw [ItemKey.lt, if_pos rfl, ih]

theorem insertSorted_spec {key : ItemKey V} {keys : List (ItemKey V)} (h : ∀ other ∈ keys, (key.lt other).isSome) :
    ∃ keys', insertSorted key keys = some keys' ∧ keys'.Perm (key :: keys) := by
  induction keys with
  | nil => exact ⟨[key], rfl, List.Perm.refl _⟩
  | cons other keys ih =>
      obtain ⟨keys', hkeys', hperm⟩ := ih fun other' hother' => h other' (List.mem_cons_of_mem other hother')
      have hother := h other List.mem_cons_self
      rw [insertSorted]
      cases hlt : key.lt other with
      | none =>
          rw [hlt] at hother
          cases hother
      | some b =>
          cases b with
          | true => exact ⟨_, rfl, List.Perm.refl _⟩
          | false => exact ⟨other :: keys', by rw [hkeys']; rfl, (hperm.cons other).trans (List.Perm.swap _ _ _)⟩

/-- Keys that can be compared with each other are sorted. -/
theorem sorted_spec {keys : List (ItemKey V)}
    (h : ∀ key ∈ keys, ∀ other ∈ keys, key ≠ other → (key.lt other).isSome) :
    ∃ keys', sorted keys = some keys' ∧ keys'.Perm keys := by
  induction keys with
  | nil => exact ⟨[], rfl, List.Perm.refl _⟩
  | cons key keys ih =>
      obtain ⟨keys', hkeys', hperm⟩ := ih fun k hk k' hk' =>
        h k (List.mem_cons_of_mem key hk) k' (List.mem_cons_of_mem key hk')
      have hcompare : ∀ other ∈ keys', (key.lt other).isSome := by
        intro other hother
        by_cases heq : key = other
        · rw [heq, ItemKey.lt_self]
          rfl
        · exact h key List.mem_cons_self other (List.mem_cons_of_mem key (hperm.mem_iff.mp hother)) heq
      obtain ⟨keys'', hkeys'', hperm'⟩ := insertSorted_spec hcompare
      exact ⟨keys'', by rw [sorted, hkeys', Option.bind_some, hkeys''], hperm'.trans (hperm.cons key)⟩

namespace CollectionDiffer

variable {d : CollectionDiffer α δ ι V} {current : List (Instance α V)} {comparative : List ι} {key : ItemKey V}
  {item : Instance α V} {c : ι}

/-! ## The dictionary -/

omit [DecidableEq V] in
theorem mem_currentKeys : key ∈ d.currentKeys current ↔ ∃ item ∈ current, d.currentStrategy.makeKey item = some key :=
  List.mem_filterMap

omit [DecidableEq V] in
theorem mem_comparativeKeys : key ∈ d.comparativeKeys comparative ↔
    ∃ c ∈ comparative, d.comparative.makeKey c = some key :=
  List.mem_filterMap

theorem currentData_eq_some (h : d.currentData current key = some item) :
    item ∈ current ∧ d.currentStrategy.makeKey item = some key :=
  ⟨List.mem_reverse.mp (List.mem_of_find?_eq_some h), by simpa using List.find?_some h⟩

theorem currentData_eq_none : d.currentData current key = none ↔ key ∉ d.currentKeys current := by
  simp [currentData, mem_currentKeys, List.find?_eq_none]

omit [DecidableEq V] in
/-- When the keys are distinct, two items do not have one key. -/
theorem eq_of_makeKey (hnodup : (d.currentKeys current).Nodup) {other : Instance α V} (hitem : item ∈ current)
    (hother : other ∈ current) (hkey : d.currentStrategy.makeKey item = some key)
    (hkey' : d.currentStrategy.makeKey other = some key) : item = other := by
  by_contra hne
  have : Std.Symm fun a b : Instance α V => ∀ k, d.currentStrategy.makeKey a = some k →
      ∀ k', d.currentStrategy.makeKey b = some k' → k ≠ k' := ⟨fun a b h k hk k' hk' => (h k' hk' k hk).symm⟩
  exact (List.pairwise_filterMap.mp hnodup).forall hitem hother hne key hkey key hkey' rfl

/-- When the keys are distinct, each item is under its own. -/
theorem currentData_makeKey (hnodup : (d.currentKeys current).Nodup) (hitem : item ∈ current)
    (hkey : d.currentStrategy.makeKey item = some key) : d.currentData current key = some item := by
  cases hdata : d.currentData current key with
  | none => exact absurd (mem_currentKeys.mpr ⟨item, hitem, hkey⟩) (currentData_eq_none.mp hdata)
  | some other =>
      obtain ⟨hother, hkey'⟩ := currentData_eq_some hdata
      rw [eq_of_makeKey hnodup hother hitem hkey' hkey]

/-! ## The data of an item -/

omit [DecidableEq V] in
/-- An item is added with the converted values of its watched fields. -/
theorem mem_getAddedData {data : List (α × DataDiff V)} (hdata : d.getAddedData c = some data) {attr : α}
    {diff : DataDiff V} : (attr, diff) ∈ data ↔
      ∃ b after, (attr, b) ∈ d.watchedData ∧ d.comparative.convertData c b = some after ∧ diff = ⟨none, after⟩ := by
  rw [mem_of_mapM_eq_some hdata]
  simp only [Option.map_eq_some_iff, Prod.mk.injEq]
  constructor
  · rintro ⟨⟨a, b⟩, hwatched, after, hafter, rfl, rfl⟩
    exact ⟨b, after, hwatched, hafter, rfl⟩
  · rintro ⟨b, after, hwatched, hafter, rfl⟩
    exact ⟨(attr, b), hwatched, after, hafter, rfl, rfl⟩

/-- The attributes of which the converted values differ. -/
theorem mem_getUpdatedData {data : List (α × DataDiff V)} (hdata : d.getUpdatedData item c = some data) {attr : α}
    {diff : DataDiff V} : (attr, diff) ∈ data ↔
      ∃ b before after, (attr, b) ∈ d.watchedData ∧ d.currentStrategy.convertData item attr = some before ∧
        d.comparative.convertData c b = some after ∧ PyValue.ne before after = true ∧
        diff = ⟨some before, after⟩ := by
  obtain ⟨differences, hdifferences, rfl⟩ := Option.map_eq_some_iff.mp hdata
  rw [List.reduceOption_mem_iff, mem_of_mapM_eq_some hdifferences]
  simp only [Option.bind_eq_some_iff, Option.map_eq_some_iff, Option.ite_none_right_eq_some, Option.some.injEq,
    Prod.mk.injEq]
  constructor
  · rintro ⟨⟨a, b⟩, hwatched, before, hbefore, after, hafter, hne, rfl, rfl⟩
    exact ⟨b, before, after, hwatched, hbefore, hafter, hne, rfl⟩
  · rintro ⟨b, before, after, hwatched, hbefore, hafter, hne, rfl⟩
    exact ⟨(attr, b), hwatched, before, hbefore, after, hafter, hne, rfl, rfl⟩

omit [DecidableEq V] in
theorem isSome_getAddedData : (d.getAddedData c).isSome = true ↔
    ∀ attrs ∈ d.watchedData, (d.comparative.convertData c attrs.2).isSome = true := by
  simp only [getAddedData, isSome_mapM, Option.isSome_map]

theorem isSome_getUpdatedData : (d.getUpdatedData item c).isSome = true ↔ ∀ attrs ∈ d.watchedData,
    (d.currentStrategy.convertData item attrs.1).isSome = true ∧
      (d.comparative.convertData c attrs.2).isSome = true := by
  simp only [getUpdatedData, Option.isSome_map, isSome_mapM]
  refine forall₂_congr fun attrs _ => ?_
  cases d.currentStrategy.convertData item attrs.1 <;> simp

/-! ## What the loop yields -/

theorem compare_eq_some {x : DiffItem α ι V} : d.compare current c = some (some x) ↔
    ∃ key, d.comparative.makeKey c = some key ∧
      ((d.currentData current key = none ∧ ∃ data, d.getAddedData c = some data ∧
          x = ⟨.added, key, none, some c, data⟩) ∨
        ∃ item, d.currentData current key = some item ∧ ∃ data, d.getUpdatedData item c = some data ∧ data ≠ [] ∧
          x = ⟨.updated, key, some item, some c, data⟩) := by
  simp only [compare, Option.bind_eq_some_iff]
  refine exists_congr fun key => and_congr_right fun _ => ?_
  cases d.currentData current key with
  | none =>
      simp only [Option.map_eq_some_iff, Option.some.injEq, true_and, reduceCtorEq, false_and, exists_false,
        or_false]
      exact exists_congr fun data => and_congr_right fun _ => eq_comm
  | some item =>
      simp only [Option.map_eq_some_iff, Option.ite_none_right_eq_some, Option.some.injEq, reduceCtorEq, false_and,
        false_or]
      constructor
      · rintro ⟨data, hdata, hne, rfl⟩
        exact ⟨item, rfl, data, hdata, hne, rfl⟩
      · rintro ⟨_, rfl, data, hdata, hne, rfl⟩
        exact ⟨data, hdata, hne, rfl⟩

theorem mem_keysRemoved : key ∈ d.keysRemoved current comparative ↔
    key ∈ d.currentKeys current ∧ key ∉ d.comparativeKeys comparative := by
  simp [keysRemoved]

theorem Regular.isSome_compare (h : d.Regular current comparative) (hc : c ∈ comparative) :
    (d.compare current c).isSome = true := by
  obtain ⟨key, hkey⟩ := Option.isSome_iff_exists.mp (h.comparativeKey c hc)
  simp only [compare, hkey, Option.bind_some]
  cases hdata : d.currentData current key with
  | none =>
      simp only [Option.isSome_map]
      exact isSome_getAddedData.mpr (h.comparativeData c hc)
  | some item =>
      obtain ⟨hitem, hkeyItem⟩ := currentData_eq_some hdata
      have hmem : key ∈ d.comparativeKeys comparative := mem_comparativeKeys.mpr ⟨c, hc, hkey⟩
      simp only [Option.isSome_map]
      exact isSome_getUpdatedData.mpr fun attrs hattrs =>
        ⟨h.currentData item hitem key hkeyItem hmem attrs hattrs, h.comparativeData c hc attrs hattrs⟩

/-- What an iteration yields. -/
def Yields (d : CollectionDiffer α δ ι V) (current : List (Instance α V)) (comparative : List ι)
    (items : List (DiffItem α ι V)) : Prop :=
  ∀ x, x ∈ items ↔ (∃ c ∈ comparative, d.compare current c = some (some x)) ∨
    ∃ key ∈ d.keysRemoved current comparative, x = ⟨.removed, key, d.currentData current key, none, []⟩

/-- An iteration that does not raise, and what it yields. -/
theorem Regular.iter (h : d.Regular current comparative) :
    ∃ items, d.iter current comparative = some items ∧ d.Yields current comparative items := by
  obtain ⟨removed, hremoved, hperm⟩ := sorted_spec h.comparable
  obtain ⟨currentKeys, hcurrent⟩ := Option.isSome_iff_exists.mp (isSome_mapM.mpr h.currentKey)
  obtain ⟨comparativeKeys, hcomparative⟩ := Option.isSome_iff_exists.mp (isSome_mapM.mpr h.comparativeKey)
  obtain ⟨differences, hdifferences⟩ := Option.isSome_iff_exists.mp
    (isSome_mapM.mpr fun c hc => h.isSome_compare (c := c) hc)
  have hhashable : (currentKeys ++ comparativeKeys).all fun key => key.all PyValue.hashable := by
    refine List.all_eq_true.mpr fun key hkey => h.hashable key ?_
    rw [List.mem_append, mem_of_mapM_eq_some hcurrent, mem_of_mapM_eq_some hcomparative] at hkey
    exact List.mem_append.mpr (hkey.imp mem_currentKeys.mpr mem_comparativeKeys.mpr)
  refine ⟨_, by rw [CollectionDiffer.iter, hcurrent, Option.bind_some, hcomparative, Option.bind_some,
    if_pos hhashable, hdifferences, Option.bind_some, hremoved, Option.map_some], fun x => ?_⟩
  rw [List.mem_append, List.reduceOption_mem_iff, mem_of_mapM_eq_some hdifferences]
  simp only [List.mem_map, hperm.mem_iff, eq_comm (b := x)]

section Classification

variable {items : List (DiffItem α ι V)} (hitems : d.Yields current comparative items)

include hitems

theorem mem_added {x : DiffItem α ι V} : x ∈ items ∧ x.kind = .added ↔
    ∃ c ∈ comparative, ∃ key, d.comparative.makeKey c = some key ∧ key ∉ d.currentKeys current ∧
      ∃ data, d.getAddedData c = some data ∧ x = ⟨.added, key, none, some c, data⟩ := by
  rw [hitems]
  constructor
  · rintro ⟨⟨c, hc, hx⟩ | ⟨key, _, rfl⟩, hkind⟩
    · obtain ⟨key, hkey, ⟨hnone, data, hdata, rfl⟩ | ⟨item, _, _, _, _, rfl⟩⟩ := compare_eq_some.mp hx
      · exact ⟨c, hc, key, hkey, currentData_eq_none.mp hnone, data, hdata, rfl⟩
      · cases hkind
    · cases hkind
  · rintro ⟨c, hc, key, hkey, hnot, data, hdata, rfl⟩
    exact ⟨Or.inl ⟨c, hc, compare_eq_some.mpr
      ⟨key, hkey, Or.inl ⟨currentData_eq_none.mpr hnot, data, hdata, rfl⟩⟩⟩, rfl⟩

theorem mem_removed {x : DiffItem α ι V} : x ∈ items ∧ x.kind = .removed ↔
    ∃ key, key ∈ d.currentKeys current ∧ key ∉ d.comparativeKeys comparative ∧
      x = ⟨.removed, key, d.currentData current key, none, []⟩ := by
  rw [hitems]
  constructor
  · rintro ⟨⟨c, hc, hx⟩ | ⟨key, hkey, rfl⟩, hkind⟩
    · obtain ⟨key, _, ⟨_, data, _, rfl⟩ | ⟨item, _, _, _, _, rfl⟩⟩ := compare_eq_some.mp hx
      · cases hkind
      · cases hkind
    · exact ⟨key, (mem_keysRemoved.mp hkey).1, (mem_keysRemoved.mp hkey).2, rfl⟩
  · rintro ⟨key, hcurrent, hnot, rfl⟩
    exact ⟨Or.inr ⟨key, mem_keysRemoved.mpr ⟨hcurrent, hnot⟩, rfl⟩, rfl⟩

theorem mem_updated {x : DiffItem α ι V} : x ∈ items ∧ x.kind = .updated ↔
    ∃ c ∈ comparative, ∃ key, d.comparative.makeKey c = some key ∧ ∃ item, d.currentData current key = some item ∧
      ∃ data, d.getUpdatedData item c = some data ∧ data ≠ [] ∧ x = ⟨.updated, key, some item, some c, data⟩ := by
  rw [hitems]
  constructor
  · rintro ⟨⟨c, hc, hx⟩ | ⟨key, _, rfl⟩, hkind⟩
    · obtain ⟨key, hkey, ⟨_, data, _, rfl⟩ | h⟩ := compare_eq_some.mp hx
      · cases hkind
      · exact ⟨c, hc, key, hkey, h⟩
    · cases hkind
  · rintro ⟨c, hc, key, hkey, item, hitem, data, hdata, hne, rfl⟩
    exact ⟨Or.inl ⟨c, hc, compare_eq_some.mpr ⟨key, hkey, Or.inr ⟨item, hitem, data, hdata, hne, rfl⟩⟩⟩, rfl⟩

theorem added_iff (hregular : d.Regular current comparative) (key : ItemKey V) :
    (∃ x ∈ items, x.kind = .added ∧ x.key = key) ↔
      key ∈ d.comparativeKeys comparative ∧ key ∉ d.currentKeys current := by
  constructor
  · rintro ⟨x, hx, hkind, rfl⟩
    obtain ⟨c, hc, key, hkey, hnot, _, _, rfl⟩ := (mem_added hitems).mp ⟨hx, hkind⟩
    exact ⟨mem_comparativeKeys.mpr ⟨c, hc, hkey⟩, hnot⟩
  · rintro ⟨hmem, hnot⟩
    obtain ⟨c, hc, hkey⟩ := mem_comparativeKeys.mp hmem
    obtain ⟨data, hdata⟩ := Option.isSome_iff_exists.mp (isSome_getAddedData.mpr (hregular.comparativeData c hc))
    obtain ⟨hx, hkind⟩ := (mem_added hitems).mpr ⟨c, hc, key, hkey, hnot, data, hdata, rfl⟩
    exact ⟨_, hx, hkind, rfl⟩

theorem removed_iff (key : ItemKey V) : (∃ x ∈ items, x.kind = .removed ∧ x.key = key) ↔
    key ∈ d.currentKeys current ∧ key ∉ d.comparativeKeys comparative := by
  constructor
  · rintro ⟨x, hx, hkind, rfl⟩
    obtain ⟨key, hcurrent, hnot, rfl⟩ := (mem_removed hitems).mp ⟨hx, hkind⟩
    exact ⟨hcurrent, hnot⟩
  · rintro ⟨hcurrent, hnot⟩
    obtain ⟨hx, hkind⟩ := (mem_removed hitems).mpr ⟨key, hcurrent, hnot, rfl⟩
    exact ⟨_, hx, hkind, rfl⟩

theorem updated_iff (hregular : d.Regular current comparative) (hnodup : (d.currentKeys current).Nodup)
    (key : ItemKey V) : (∃ x ∈ items, x.kind = .updated ∧ x.key = key) ↔
      ∃ item ∈ current, ∃ c ∈ comparative, d.currentStrategy.makeKey item = some key ∧
        d.comparative.makeKey c = some key ∧ ∃ attrs ∈ d.watchedData,
          ∃ before ∈ d.currentStrategy.convertData item attrs.1, ∃ after ∈ d.comparative.convertData c attrs.2,
            PyValue.ne before after = true := by
  constructor
  · rintro ⟨x, hx, hkind, rfl⟩
    obtain ⟨c, hc, key, hkey, item, hitem, data, hdata, hne, rfl⟩ := (mem_updated hitems).mp ⟨hx, hkind⟩
    obtain ⟨hmem, hkeyItem⟩ := currentData_eq_some hitem
    obtain ⟨⟨attr, diff⟩, hentry⟩ := List.exists_mem_of_ne_nil _ hne
    obtain ⟨b, before, after, hwatched, hbefore, hafter, hdiffer, -⟩ := (mem_getUpdatedData hdata).mp hentry
    exact ⟨item, hmem, c, hc, hkeyItem, hkey, (attr, b), hwatched, before, hbefore, after, hafter, hdiffer⟩
  · rintro ⟨item, hitem, c, hc, hkeyItem, hkey, attrs, hattrs, before, hbefore, after, hafter, hdiffer⟩
    have hmem : key ∈ d.comparativeKeys comparative := mem_comparativeKeys.mpr ⟨c, hc, hkey⟩
    obtain ⟨data, hdata⟩ := Option.isSome_iff_exists.mp (isSome_getUpdatedData.mpr fun attrs hattrs =>
      ⟨hregular.currentData item hitem key hkeyItem hmem attrs hattrs, hregular.comparativeData c hc attrs hattrs⟩)
    have hentry := (mem_getUpdatedData hdata).mpr ⟨attrs.2, before, after, hattrs, hbefore, hafter, hdiffer, rfl⟩
    obtain ⟨hx, hkind⟩ := (mem_updated hitems).mpr ⟨c, hc, key, hkey, item, currentData_makeKey hnodup hitem hkeyItem,
      data, hdata, List.ne_nil_of_mem hentry, rfl⟩
    exact ⟨_, hx, hkind, rfl⟩

theorem classifies (hregular : d.Regular current comparative) (hnodup : (d.currentKeys current).Nodup) :
    d.Classifies current comparative items := by
  refine ⟨added_iff hitems hregular, removed_iff hitems, updated_iff hitems hregular hnodup, fun x hx y hy hkey => ?_⟩
  -- A key that is added, removed or updated says in which of the collections it is.
  have hplace : ∀ z ∈ items, (z.kind = .added → z.key ∈ d.comparativeKeys comparative ∧ z.key ∉ d.currentKeys current) ∧
      (z.kind = .removed → z.key ∈ d.currentKeys current ∧ z.key ∉ d.comparativeKeys comparative) ∧
      (z.kind = .updated → z.key ∈ d.currentKeys current ∧ z.key ∈ d.comparativeKeys comparative) := by
    intro z hz
    refine ⟨fun h => (added_iff hitems hregular _).mp ⟨z, hz, h, rfl⟩,
      fun h => (removed_iff hitems _).mp ⟨z, hz, h, rfl⟩, fun h => ?_⟩
    obtain ⟨item, hitem, c, hc, hkey, hkey', -⟩ := (updated_iff hitems hregular hnodup _).mp ⟨z, hz, h, rfl⟩
    exact ⟨mem_currentKeys.mpr ⟨item, hitem, hkey⟩, mem_comparativeKeys.mpr ⟨c, hc, hkey'⟩⟩
  obtain ⟨hxa, hxr, hxu⟩ := hplace x hx
  obtain ⟨hya, hyr, hyu⟩ := hplace y hy
  rw [hkey] at hxa hxr hxu
  cases hxkind : x.kind <;> cases hykind : y.kind <;> grind

end Classification

end CollectionDiffer

/-! ## `apply_diff` -/

section Assignments

variable {α : Type v} {δ : Type w} {ι : Type x} {V : Type u} [DecidableEq α]

/-- Assign the values of a list of differences. -/
def assign (item : Instance α V) (data : List (α × DataDiff V)) : Instance α V :=
  data.foldl (fun item entry => Function.update item entry.1 (.value entry.2.after)) item

theorem assign_of_notMem {item : Instance α V} {data : List (α × DataDiff V)} {attr : α}
    (h : ∀ entry ∈ data, entry.1 ≠ attr) : assign item data attr = item attr := by
  induction data generalizing item with
  | nil => rfl
  | cons entry data ih =>
      rw [assign, List.foldl_cons, ← assign, ih fun e he => h e (List.mem_cons_of_mem entry he),
        Function.update_of_ne (h entry List.mem_cons_self).symm]

/-- When one value is assigned to an attribute, it has this value afterwards. -/
theorem assign_of_mem {item : Instance α V} {data : List (α × DataDiff V)} {entry : α × DataDiff V}
    (hentry : entry ∈ data) (h : ∀ e ∈ data, e.1 = entry.1 → e.2 = entry.2) :
    assign item data entry.1 = .value entry.2.after := by
  induction data generalizing item with
  | nil => cases hentry
  | cons e data ih =>
      have htail : ∀ e' ∈ data, e'.1 = entry.1 → e'.2 = entry.2 := fun e' he' => h e' (List.mem_cons_of_mem e he')
      rw [assign, List.foldl_cons, ← assign]
      by_cases hmem : ∃ e' ∈ data, e'.1 = entry.1
      · obtain ⟨e', he', heq⟩ := hmem
        obtain rfl : e' = entry := Prod.ext heq (htail e' he' heq)
        exact ih he' htail
      · have hnone : ∀ e' ∈ data, e'.1 ≠ entry.1 := fun e' he' heq => hmem ⟨e', he', heq⟩
        obtain rfl : entry = e := (List.mem_cons.mp hentry).resolve_right fun hin => hnone entry hin rfl
        rw [assign_of_notMem hnone, Function.update_self]

/-- Assigning the same values again changes nothing. -/
theorem assign_assign {item : Instance α V} {data : List (α × DataDiff V)}
    (h : ∀ e ∈ data, ∀ e' ∈ data, e.1 = e'.1 → e.2 = e'.2) : assign (assign item data) data = assign item data := by
  funext attr
  by_cases hmem : ∃ entry ∈ data, entry.1 = attr
  · obtain ⟨entry, hentry, rfl⟩ := hmem
    have hsame : ∀ e ∈ data, e.1 = entry.1 → e.2 = entry.2 := fun e he => h e he entry hentry
    rw [assign_of_mem hentry hsame, assign_of_mem hentry hsame]
  · exact assign_of_notMem fun entry hentry heq => hmem ⟨entry, hentry, heq⟩

/-- Differences that all have the same data change an item once. -/
theorem foldl_applyDiff {item : Instance α V} {data : List (α × DataDiff V)} {updates : List (DiffItem α ι V)}
    (h : ∀ e ∈ data, ∀ e' ∈ data, e.1 = e'.1 → e.2 = e'.2) (hne : updates ≠ [])
    (hdata : ∀ x ∈ updates, x.data = data) : updates.foldl applyDiff item = assign item data := by
  induction updates generalizing item with
  | nil => exact absurd rfl hne
  | cons x updates ih =>
      have happly : applyDiff item x = assign item data := by
        rw [← hdata x List.mem_cons_self]
        rfl
      rw [List.foldl_cons, happly]
      cases updates with
      | nil => rfl
      | cons y updates =>
          rw [ih (List.cons_ne_nil y updates) fun z hz => hdata z (List.mem_cons_of_mem x hz), assign_assign h]

omit [DecidableEq α] in
/-- The parts of two keys that are equal have equal values. -/
theorem exists_zip_of_map_eq {l : List α} {l' : List δ} {f : α → V} {g : δ → V} (h : l.map f = l'.map g) {a : α}
    (ha : a ∈ l) : ∃ b, (a, b) ∈ l.zip l' ∧ f a = g b := by
  induction l generalizing l' with
  | nil => cases ha
  | cons x l ih =>
      cases l' with
      | nil => cases h
      | cons y l' =>
          rw [List.map_cons, List.map_cons, List.cons.injEq] at h
          rw [List.zip_cons_cons]
          rcases List.mem_cons.mp ha with rfl | ha
          · exact ⟨y, List.mem_cons_self, h.1⟩
          · obtain ⟨b, hb, hvalue⟩ := ih h.2 ha
            exact ⟨b, List.mem_cons_of_mem _ hb, hvalue⟩

end Assignments

namespace CollectionDiffer

variable [DecidableEq α] {d : CollectionDiffer α δ ι V} {current : List (Instance α V)} {comparative : List ι}
  {items : List (DiffItem α ι V)} {create : DiffItem α ι V → Instance α V} {key : ItemKey V}

omit [DecidableEq V] [PyValue V] [DecidableEq α] in
/-- An attribute is watched with one field of the comparative items. -/
theorem watchedData_unique {attr : α} {b b' : δ} (hb : (attr, b) ∈ d.watchedData) (hb' : (attr, b') ∈ d.watchedData) :
    b = b' :=
  congrArg Prod.snd (List.inj_on_of_nodup_map d.watchedData_nodup hb hb' rfl)

/-! ## An item that is updated -/

section Updated

variable {item : Instance α V} {c : ι} {data : List (α × DataDiff V)}

/-- The values that are watched are those of the comparative item, and equal themselves. -/
def Matches (d : CollectionDiffer α δ ι V) (item : Instance α V) (c : ι) : Prop :=
  ∀ attrs ∈ d.watchedData, ∃ v, d.currentStrategy.convertData item attrs.1 = some v ∧
    d.comparative.convertData c attrs.2 = some v ∧ PyValue.selfEqual v = true

omit [DecidableEq α] in
/-- Nothing differs between items that match. -/
theorem Matches.getUpdatedData (h : d.Matches item c) (hdata : d.getUpdatedData item c = some data) : data = [] := by
  refine List.eq_nil_iff_forall_not_mem.mpr ?_
  rintro ⟨attr, diff⟩ hentry
  obtain ⟨b, before, after, hwatched, hbefore, hafter, hne, -⟩ := (mem_getUpdatedData hdata).mp hentry
  obtain ⟨v, hv, hv', hself⟩ := h (attr, b) hwatched
  rw [hbefore, Option.some.injEq] at hv
  rw [hafter, Option.some.injEq] at hv'
  rw [hv, hv', PyValue.ne_eq_false.mpr ⟨rfl, hself⟩] at hne
  cases hne

omit [DecidableEq α] in
theorem matches_of_getUpdatedData (hdata : d.getUpdatedData item c = some []) : d.Matches item c := by
  intro attrs hattrs
  obtain ⟨hbefore, hafter⟩ := isSome_getUpdatedData.mp (Option.isSome_iff_exists.mpr ⟨_, hdata⟩) attrs hattrs
  obtain ⟨before, hbefore⟩ := Option.isSome_iff_exists.mp hbefore
  obtain ⟨after, hafter⟩ := Option.isSome_iff_exists.mp hafter
  cases hne : PyValue.ne before after with
  | true => cases (mem_getUpdatedData hdata).mpr ⟨attrs.2, before, after, hattrs, hbefore, hafter, hne, rfl⟩
  | false =>
      obtain ⟨rfl, hself⟩ := PyValue.ne_eq_false.mp hne
      exact ⟨before, hbefore, hafter, hself⟩

omit [DecidableEq V] [DecidableEq α] in
theorem convertData_eq_of_value {attr : α} {v : V} (h : item attr = .value v) :
    d.currentStrategy.convertData item attr = d.currentStrategy.converter attr v := by
  simp only [CollectionStrategy.convertData, currentStrategy, h]

omit [DecidableEq V] in
theorem convertData_assign_of_notMem {attr : α} (h : ∀ entry ∈ data, entry.1 ≠ attr) :
    d.currentStrategy.convertData (assign item data) attr = d.currentStrategy.convertData item attr := by
  simp only [CollectionStrategy.convertData, currentStrategy, assign_of_notMem h]

variable (hc : c ∈ comparative) (hdata : d.getUpdatedData item c = some data)

include hc hdata in
theorem matches_assign (hident : d.ConvertersAreIdentities comparative)
    (hself : d.ValuesEqualThemselves comparative) : d.Matches (assign item data) c := by
  rintro ⟨attr, b⟩ hwatched
  obtain ⟨hbefore, hafter⟩ := isSome_getUpdatedData.mp (Option.isSome_iff_exists.mpr ⟨_, hdata⟩) (attr, b) hwatched
  obtain ⟨before, hbefore⟩ := Option.isSome_iff_exists.mp hbefore
  obtain ⟨after, hafter⟩ := Option.isSome_iff_exists.mp hafter
  refine ⟨after, ?_, hafter, hself c hc (attr, b) hwatched after hafter⟩
  cases hne : PyValue.ne before after with
  | false =>
      have hnone : ∀ entry ∈ data, entry.1 ≠ attr := by
        rintro ⟨attr', diff⟩ hentry rfl
        obtain ⟨b', before', after', hb', hbefore', hafter', hne', -⟩ := (mem_getUpdatedData hdata).mp hentry
        obtain rfl := watchedData_unique hb' hwatched
        rw [hbefore, Option.some.injEq] at hbefore'
        rw [hafter, Option.some.injEq] at hafter'
        rw [← hbefore', ← hafter', hne] at hne'
        cases hne'
      rw [convertData_assign_of_notMem hnone, hbefore, (PyValue.ne_eq_false.mp hne).1]
  | true =>
      have hentry := (mem_getUpdatedData hdata).mpr ⟨b, before, after, hwatched, hbefore, hafter, hne, rfl⟩
      have hsame : ∀ e ∈ data, e.1 = attr → e.2 = ⟨some before, after⟩ := by
        rintro ⟨attr', diff⟩ he rfl
        obtain ⟨b', before', after', hb', hbefore', hafter', -, rfl⟩ := (mem_getUpdatedData hdata).mp he
        obtain rfl := watchedData_unique hb' hwatched
        rw [hbefore, Option.some.injEq] at hbefore'
        rw [hafter, Option.some.injEq] at hafter'
        rw [hbefore', hafter']
      have hvalue : assign item data attr = .value after := assign_of_mem hentry hsame
      rw [convertData_eq_of_value hvalue]
      exact hident (attr, b) hwatched c hc after hafter

include hc hdata in
/-- The attributes of the key are not updated. -/
theorem makeKey_assign (hkept : d.KeysAreKept) (hself : d.ValuesEqualThemselves comparative)
    (hkey : d.currentStrategy.makeKey item = some key) (hkey' : d.comparative.makeKey c = some key) :
    d.currentStrategy.makeKey (assign item data) = some key := by
  rw [← hkey]
  refine mapM_congr fun attr hattr => convertData_assign_of_notMem ?_
  rintro ⟨attr', diff⟩ hentry rfl
  obtain ⟨b, before, after, hwatched, hbefore, hafter, hne, -⟩ := (mem_getUpdatedData hdata).mp hentry
  have hmap : d.currentKey.map (d.currentStrategy.convertData item) =
      d.comparative.key.map (d.comparative.convertData c) :=
    (mapM_eq_some.mp hkey).trans (mapM_eq_some.mp hkey').symm
  obtain ⟨b', hzip, hvalue⟩ := exists_zip_of_map_eq hmap hattr
  obtain rfl := hkept _ hzip _ hwatched rfl
  rw [hbefore, hafter, Option.some.injEq] at hvalue
  subst hvalue
  rw [PyValue.ne_eq_false.mpr ⟨rfl, hself c hc _ hwatched before hafter⟩] at hne
  cases hne

omit [DecidableEq α] in
include hdata in
theorem getUpdatedData_unique : ∀ e ∈ data, ∀ e' ∈ data, e.1 = e'.1 → e.2 = e'.2 := by
  rintro ⟨attr, diff⟩ he ⟨attr', diff'⟩ he' rfl
  obtain ⟨b, before, after, hb, hbefore, hafter, -, rfl⟩ := (mem_getUpdatedData hdata).mp he
  obtain ⟨b', before', after', hb', hbefore', hafter', -, rfl⟩ := (mem_getUpdatedData hdata).mp he'
  obtain rfl := watchedData_unique hb hb'
  rw [hbefore, Option.some.injEq] at hbefore'
  rw [hafter, Option.some.injEq] at hafter'
  rw [hbefore', hafter']

omit [DecidableEq α] in
/-- Comparative items that have the same watched values make the same data. -/
theorem getUpdatedData_congr {c' : ι}
    (h : ∀ attrs ∈ d.watchedData, d.comparative.convertData c attrs.2 = d.comparative.convertData c' attrs.2) :
    d.getUpdatedData item c = d.getUpdatedData item c' := by
  refine congrArg (Option.map _) (mapM_congr fun attrs hattrs => ?_)
  rw [h attrs hattrs]

end Updated

/-! ## The second iteration -/

section Second

variable (hregular : d.Regular current comparative) (hnodup : (d.currentKeys current).Nodup)
  (hident : d.ConvertersAreIdentities comparative) (hagree : d.RepeatedKeysAgree comparative)
  (hself : d.ValuesEqualThemselves comparative) (hkept : d.KeysAreKept)
  (hitems : d.Yields current comparative items) (hcreate : d.CreatesWithData create items)

/-- The items that are left: those that are not removed, with what is assigned to them, and those that are created. -/
theorem mem_reconcile {item : Instance α V} : item ∈ d.reconcile create current items ↔
    (∃ item₀ ∈ current, (∀ key, d.currentStrategy.makeKey item₀ = some key →
        ∀ x ∈ items, x.kind = .removed → x.key ≠ key) ∧
      ((items.filter fun x => x.kind = .updated).filter fun x =>
        d.currentStrategy.makeKey item₀ = some x.key).foldl applyDiff item₀ = item) ∨
    ∃ x ∈ items, x.kind = .added ∧ create x = item := by
  simp only [reconcile, List.mem_append, List.mem_map, List.mem_filter, decide_eq_true_eq, not_exists, not_and,
    and_assoc, Option.all_eq_true]

/-- What an item that is left has: a key of the comparative collection, and the watched values of its items with this
key. -/
structure Settled (d : CollectionDiffer α δ ι V) (comparative : List ι) (key : ItemKey V) (item : Instance α V) :
    Prop where
  mem : key ∈ d.comparativeKeys comparative
  makeKey : d.currentStrategy.makeKey item = some key
  agrees : ∀ c ∈ comparative, d.comparative.makeKey c = some key → d.Matches item c

omit [DecidableEq V] [DecidableEq α] in
include hagree in
/-- Comparative items with one key match the same items. -/
theorem Matches.congr {item : Instance α V} {c c' : ι} (h : d.Matches item c) (hc : c ∈ comparative)
    (hc' : c' ∈ comparative) (hkey : d.comparative.makeKey c = d.comparative.makeKey c') : d.Matches item c' := by
  intro attrs hattrs
  rw [← hagree c hc c' hc' hkey attrs hattrs]
  exact h attrs hattrs

include hregular hnodup hident hagree hself hkept hitems in
/-- An item that is kept, once the differences with its key are applied. -/
theorem settled_kept {item : Instance α V} (hitem : item ∈ current)
    (hkeyItem : d.currentStrategy.makeKey item = some key) (hremoved : ∀ x ∈ items, x.kind = .removed → x.key ≠ key) :
    d.Settled comparative key (((items.filter fun x => x.kind = .updated).filter fun x =>
      d.currentStrategy.makeKey item = some x.key).foldl applyDiff item) := by
  have hmem : key ∈ d.comparativeKeys comparative := by
    by_contra hnot
    obtain ⟨hx, hkind⟩ := (mem_removed hitems).mpr ⟨key, mem_currentKeys.mpr ⟨item, hitem, hkeyItem⟩, hnot, rfl⟩
    exact hremoved _ hx hkind rfl
  obtain ⟨c₀, hc₀, hkey₀⟩ := mem_comparativeKeys.mp hmem
  have hdataItem : d.currentData current key = some item := currentData_makeKey hnodup hitem hkeyItem
  obtain ⟨data, hdata⟩ := Option.isSome_iff_exists.mp (isSome_getUpdatedData.mpr fun attrs hattrs =>
    ⟨hregular.currentData item hitem key hkeyItem hmem attrs hattrs, hregular.comparativeData c₀ hc₀ attrs hattrs⟩)
  generalize hupdates : ((items.filter fun x => x.kind = .updated).filter fun x =>
    d.currentStrategy.makeKey item = some x.key) = updates
  have hsame : ∀ x ∈ updates, x.data = data := by
    intro x hx
    rw [← hupdates, List.mem_filter, List.mem_filter, decide_eq_true_eq, decide_eq_true_eq] at hx
    obtain ⟨c, hc, key', hkey', item', hitem', data', hdata', -, rfl⟩ := (mem_updated hitems).mp hx.1
    have hkeys : key = key' := Option.some.inj (hkeyItem.symm.trans hx.2)
    subst hkeys
    rw [hdataItem, Option.some.injEq] at hitem'
    subst hitem'
    rw [getUpdatedData_congr (hagree c hc c₀ hc₀ (hkey'.trans hkey₀.symm)), hdata, Option.some.injEq] at hdata'
    exact hdata'.symm
  suffices h : d.currentStrategy.makeKey (updates.foldl applyDiff item) = some key ∧
      d.Matches (updates.foldl applyDiff item) c₀ from
    ⟨hmem, h.1, fun c hc hkey => h.2.congr hagree hc₀ hc (hkey₀.trans hkey.symm)⟩
  by_cases hnil : updates = []
  · rw [hnil, List.foldl_nil]
    refine ⟨hkeyItem, matches_of_getUpdatedData ?_⟩
    rw [hdata, Option.some.injEq]
    by_contra hne
    obtain ⟨hx, hkind⟩ :=
      (mem_updated hitems).mpr ⟨c₀, hc₀, key, hkey₀, item, hdataItem, data, hdata, hne, rfl⟩
    have hin : (⟨.updated, key, some item, some c₀, data⟩ : DiffItem α ι V) ∈ updates := by
      rw [← hupdates, List.mem_filter, List.mem_filter, decide_eq_true_eq, decide_eq_true_eq]
      exact ⟨⟨hx, hkind⟩, hkeyItem⟩
    rw [hnil] at hin
    cases hin
  · rw [foldl_applyDiff (getUpdatedData_unique hdata) hnil hsame]
    exact ⟨makeKey_assign hc₀ hdata hkept hself hkeyItem hkey₀, matches_assign hc₀ hdata hident hself⟩

omit [DecidableEq α] in
include hregular hident hagree hself hitems hcreate in
/-- An item that is created. -/
theorem settled_created {x : DiffItem α ι V} (hx : x ∈ items) (hkind : x.kind = .added) :
    d.Settled comparative x.key (create x) := by
  have hkey := hcreate.key x hx hkind
  have hvalues := hcreate.data x hx hkind
  obtain ⟨c₀, hc₀, key, hkey₀, -, data, hdata, rfl⟩ := (mem_added hitems).mp ⟨hx, hkind⟩
  refine ⟨mem_comparativeKeys.mpr ⟨c₀, hc₀, hkey₀⟩, hkey, fun c hc hkeyc => ?_⟩
  suffices h : d.Matches (create ⟨.added, key, none, some c₀, data⟩) c₀ from
    h.congr hagree hc₀ hc (hkey₀.trans hkeyc.symm)
  rintro ⟨attr, b⟩ hwatched
  obtain ⟨after, hafter⟩ := Option.isSome_iff_exists.mp (hregular.comparativeData c₀ hc₀ (attr, b) hwatched)
  have hvalue := hvalues _ ((mem_getAddedData hdata).mpr ⟨b, after, hwatched, hafter, rfl⟩)
  refine ⟨after, ?_, hafter, hself c₀ hc₀ (attr, b) hwatched after hafter⟩
  rw [convertData_eq_of_value hvalue]
  exact hident (attr, b) hwatched c₀ hc₀ after hafter

include hregular hnodup hident hagree hself hkept hitems hcreate in
theorem settled_of_mem_reconcile {item : Instance α V} (hitem : item ∈ d.reconcile create current items) :
    ∃ key, d.Settled comparative key item := by
  rcases mem_reconcile.mp hitem with ⟨item₀, hitem₀, hremoved, rfl⟩ | ⟨x, hx, hkind, rfl⟩
  · obtain ⟨key, hkey⟩ := Option.isSome_iff_exists.mp (hregular.currentKey item₀ hitem₀)
    exact ⟨key, settled_kept hregular hnodup hident hagree hself hkept hitems hitem₀ hkey (hremoved key hkey)⟩
  · exact ⟨x.key, settled_created hregular hident hagree hself hitems hcreate hx hkind⟩

include hregular hnodup hident hagree hself hkept hitems hcreate in
/-- Every key of the comparative collection is there. -/
theorem mem_currentKeys_reconcile (hkey : key ∈ d.comparativeKeys comparative) :
    key ∈ d.currentKeys (d.reconcile create current items) := by
  obtain ⟨c, hc, hkeyc⟩ := mem_comparativeKeys.mp hkey
  by_cases hcurrent : key ∈ d.currentKeys current
  · obtain ⟨item, hitem, hkeyItem⟩ := mem_currentKeys.mp hcurrent
    have hremoved : ∀ x ∈ items, x.kind = .removed → x.key ≠ key := by
      rintro x hx hkind rfl
      obtain ⟨key, -, hnot, rfl⟩ := (mem_removed hitems).mp ⟨hx, hkind⟩
      exact hnot hkey
    have hremoved' : ∀ key, d.currentStrategy.makeKey item = some key →
        ∀ x ∈ items, x.kind = .removed → x.key ≠ key := by
      intro key' hkey'
      rwa [← Option.some.inj (hkeyItem.symm.trans hkey')]
    exact mem_currentKeys.mpr ⟨_, mem_reconcile.mpr (Or.inl ⟨item, hitem, hremoved', rfl⟩),
      (settled_kept hregular hnodup hident hagree hself hkept hitems hitem hkeyItem hremoved).makeKey⟩
  · obtain ⟨data, hdata⟩ := Option.isSome_iff_exists.mp (isSome_getAddedData.mpr (hregular.comparativeData c hc))
    obtain ⟨hx, hkind⟩ := (mem_added hitems).mpr ⟨c, hc, key, hkeyc, hcurrent, data, hdata, rfl⟩
    exact mem_currentKeys.mpr ⟨_, mem_reconcile.mpr (Or.inr ⟨_, hx, hkind, rfl⟩), hcreate.key _ hx hkind⟩

include hregular hnodup hident hagree hself hkept hitems hcreate in
/-- The second iteration yields nothing. -/
theorem iter_reconcile : d.iter (d.reconcile create current items) comparative = some [] := by
  have hspec : ∀ item ∈ d.reconcile create current items, ∃ key, d.Settled comparative key item := fun item hitem =>
    settled_of_mem_reconcile hregular hnodup hident hagree hself hkept hitems hcreate hitem
  have hsettled : ∀ item ∈ d.reconcile create current items, ∀ key, d.currentStrategy.makeKey item = some key →
      d.Settled comparative key item := by
    intro item hitem key hkey
    obtain ⟨key', h⟩ := hspec item hitem
    rwa [Option.some.inj (hkey.symm.trans h.makeKey)]
  have hkeys : ∀ key ∈ d.currentKeys (d.reconcile create current items), key ∈ d.comparativeKeys comparative := by
    intro key hkey
    obtain ⟨item, hitem, hkeyItem⟩ := mem_currentKeys.mp hkey
    exact (hsettled item hitem key hkeyItem).mem
  have hnone : ∀ key, key ∉ d.keysRemoved (d.reconcile create current items) comparative := fun key hkey =>
    (mem_keysRemoved.mp hkey).2 (hkeys key (mem_keysRemoved.mp hkey).1)
  have hregular' : d.Regular (d.reconcile create current items) comparative := by
    refine ⟨fun item hitem => ?_, hregular.comparativeKey, fun item hitem key hkey hmem attrs hattrs => ?_,
      hregular.comparativeData, fun key hkey => ?_, fun key hkey => absurd hkey (hnone key)⟩
    · obtain ⟨key, h⟩ := hspec item hitem
      exact Option.isSome_iff_exists.mpr ⟨key, h.makeKey⟩
    · obtain ⟨c, hc, hkeyc⟩ := mem_comparativeKeys.mp hmem
      obtain ⟨v, hv, -⟩ := (hsettled item hitem key hkey).agrees c hc hkeyc attrs hattrs
      exact Option.isSome_iff_exists.mpr ⟨v, hv⟩
    · exact hregular.hashable key (List.mem_append_right _ ((List.mem_append.mp hkey).elim (hkeys key) id))
  obtain ⟨items', hiter, hitems'⟩ := hregular'.iter
  rw [hiter, Option.some.injEq, List.eq_nil_iff_forall_not_mem]
  intro x hx
  rcases (hitems' x).mp hx with ⟨c, hc, hcompare⟩ | ⟨key, hkey, -⟩
  · obtain ⟨key, hkey, ⟨hmissing, -⟩ | ⟨item, hitem, data, hdata, hne, -⟩⟩ := compare_eq_some.mp hcompare
    · exact currentData_eq_none.mp hmissing (mem_currentKeys_reconcile hregular hnodup hident hagree hself hkept hitems
        hcreate (mem_comparativeKeys.mpr ⟨c, hc, hkey⟩))
    · obtain ⟨hmem, hkeyItem⟩ := currentData_eq_some hitem
      exact hne (((hsettled item hmem key hkeyItem).agrees c hc hkey).getUpdatedData hdata)
  · exact hnone key hkey

end Second

end CollectionDiffer

end Itou.Diffs
