import Mathlib.Data.List.Induction
import Mathlib.Data.List.Sort

/-!
# Queries

`order_by` on a column, with the rows that have equal values kept in the order of the table, and what is known
of the first row. The rows grouped by a column.

The `Q` objects of a query set, where a condition can bear on a relation to many rows. The conditions of one `filter` that
are not negated bear on one related row, that of a left join. A negated one bears on all of them by itself: it becomes a
subquery of its own. The negated conditions come first here, before the join is made.
-/

namespace Itou.Lib

universe u v

variable {α : Type u} {β : Type v}

/-- A filter that one row passes. -/
theorem filter_eq_singleton {p : α → Bool} {l : List α} {a : α} (hnodup : l.Nodup) (ha : a ∈ l) (hpa : p a = true)
    (honly : ∀ b ∈ l, p b = true → b = a) : l.filter p = [a] := by
  refine List.perm_singleton.1 ((List.perm_ext_iff_of_nodup (hnodup.filter p) (List.nodup_singleton a)).2 fun b => ?_)
  rw [List.mem_filter, List.mem_singleton]
  constructor
  · exact fun h => honly b h.1 h.2
  · rintro rfl
    exact ⟨ha, hpa⟩

/-- A column that a partial map keeps. -/
theorem sublist_map_filterMap {γ : Type*} {f : α → Option β} {k : α → γ} {k' : β → γ}
    (h : ∀ x y, f x = some y → k' y = k x) (l : List α) :
    ((l.filterMap f).map k').Sublist (l.map k) := by
  induction l with
  | nil => exact .slnil
  | cons x rest ih =>
      rw [List.filterMap_cons]
      split
      next => exact ih.cons (k x)
      next y hy =>
        rw [List.map_cons, List.map_cons, h x y hy]
        exact ih.cons_cons (k x)

/-! ## Grouping -/

section Grouping

variable [DecidableEq β]

/-- `result.setdefault(key, []).append(value)`. -/
def setdefaultAppend (key : β) (value : α) : List (β × List α) → List (β × List α)
  | [] => [(key, [value])]
  | entry :: rest =>
      if entry.1 = key then (key, entry.2 ++ [value]) :: rest else entry :: setdefaultAppend key value rest

/-- The elements by the value of a column, in the order of its first occurrences. -/
def groupBy (column : α → β) (l : List α) : List (β × List α) :=
  l.foldl (fun result x => setdefaultAppend (column x) x result) []

variable {column : α → β} {key : β} {value : α} {result : List (β × List α)}

theorem mem_keys_setdefaultAppend {key' : β} : key' ∈ (setdefaultAppend key value result).map Prod.fst ↔
    key' = key ∨ key' ∈ result.map Prod.fst := by
  induction result with
  | nil => simp [setdefaultAppend]
  | cons entry rest ih =>
      rw [setdefaultAppend]
      split
      next hkey => simp [hkey]
      next hkey => rw [List.map_cons, List.mem_cons, ih, List.map_cons, List.mem_cons, or_left_comm]

theorem nodup_keys_setdefaultAppend (h : (result.map Prod.fst).Nodup) :
    ((setdefaultAppend key value result).map Prod.fst).Nodup := by
  induction result with
  | nil => exact List.nodup_singleton key
  | cons entry rest ih =>
      obtain ⟨hentry, hrest⟩ := List.nodup_cons.mp h
      rw [setdefaultAppend]
      split
      next hkey => exact List.nodup_cons.mpr ⟨hkey ▸ hentry, hrest⟩
      next hkey =>
        refine List.nodup_cons.mpr ⟨fun hmem => ?_, ih hrest⟩
        rcases mem_keys_setdefaultAppend.mp hmem with hmem | hmem
        · exact hkey hmem
        · exact hentry hmem

theorem mem_setdefaultAppend (h : (result.map Prod.fst).Nodup) {entry : β × List α}
    (hentry : entry ∈ setdefaultAppend key value result) :
    entry ∈ result ∧ entry.1 ≠ key ∨ (∃ values, (key, values) ∈ result ∧ entry = (key, values ++ [value])) ∨
      key ∉ result.map Prod.fst ∧ entry = (key, [value]) := by
  induction result with
  | nil => exact .inr (.inr ⟨List.not_mem_nil, List.mem_singleton.mp hentry⟩)
  | cons first rest ih =>
      obtain ⟨hfirst, hrest⟩ := List.nodup_cons.mp h
      rw [setdefaultAppend] at hentry
      split at hentry
      next hkey =>
        rcases List.mem_cons.mp hentry with rfl | hmem
        · exact .inr (.inl ⟨first.2, by simp [← hkey], rfl⟩)
        · refine .inl ⟨List.mem_cons_of_mem first hmem, fun heq => hfirst ?_⟩
          rw [hkey, ← heq]
          exact List.mem_map_of_mem hmem
      next hkey =>
        rcases List.mem_cons.mp hentry with rfl | hmem
        · exact .inl ⟨List.mem_cons_self, hkey⟩
        · rcases ih hrest hmem with ⟨hold, hne⟩ | ⟨values, hold, rfl⟩ | ⟨hnew, rfl⟩
          · exact .inl ⟨List.mem_cons_of_mem first hold, hne⟩
          · exact .inr (.inl ⟨values, List.mem_cons_of_mem first hold, rfl⟩)
          · refine .inr (.inr ⟨fun hmem => ?_, rfl⟩)
            rcases List.mem_cons.mp hmem with heq | hmem
            · exact hkey heq.symm
            · exact hnew hmem

/-- Each group lists the elements that have its value. -/
theorem groupBy_spec (column : α → β) (l : List α) : ((groupBy column l).map Prod.fst).Nodup ∧
    (∀ key, key ∈ (groupBy column l).map Prod.fst ↔ key ∈ l.map column) ∧
    ∀ group ∈ groupBy column l, group.2 = l.filter fun x => decide (column x = group.1) := by
  induction l using List.reverseRecOn with
  | nil => simp [groupBy]
  | append_singleton l x ih =>
      obtain ⟨hnodup, hkeys, hgroups⟩ := ih
      rw [groupBy, List.foldl_append, ← groupBy, List.foldl_cons, List.foldl_nil]
      refine ⟨nodup_keys_setdefaultAppend hnodup, fun key => ?_, fun group hgroup => ?_⟩
      · rw [mem_keys_setdefaultAppend, hkeys, List.map_append, List.mem_append, List.map_singleton, List.mem_singleton,
          or_comm]
      · rw [List.filter_append]
        rcases mem_setdefaultAppend hnodup hgroup with ⟨hgroup, hne⟩ | ⟨values, hmem, rfl⟩ | ⟨hnew, rfl⟩
        · rw [List.filter_cons_of_neg (by simpa using hne.symm), List.filter_nil, List.append_nil]
          exact hgroups group hgroup
        · rw [List.filter_cons_of_pos (by simp), List.filter_nil]
          exact congrArg (· ++ [x]) (hgroups _ hmem)
        · rw [List.filter_cons_of_pos (by simp), List.filter_nil, List.filter_eq_nil_iff.mpr, List.nil_append]
          intro y hy hkey
          exact hnew ((hkeys _).mpr (List.mem_map.mpr ⟨y, hy, of_decide_eq_true hkey⟩))

end Grouping

section Order

variable [LinearOrder β]

/-- `order_by("column")`. -/
def orderBy (column : α → β) (l : List α) : List α := l.insertionSort fun x y => column x ≤ column y

/-- `order_by("-column")`. -/
def orderByDesc (column : α → β) (l : List α) : List α := l.insertionSort fun x y => column y ≤ column x

variable {column : α → β} {l : List α} {x y : α}

@[simp] theorem mem_orderBy : x ∈ orderBy column l ↔ x ∈ l := List.mem_insertionSort _

@[simp] theorem mem_orderByDesc : x ∈ orderByDesc column l ↔ x ∈ l := List.mem_insertionSort _

/-- `order_by("-column").first()` has the greatest value. -/
theorem le_of_head?_orderByDesc (hx : (orderByDesc column l).head? = some x) (hy : y ∈ l) :
    column y ≤ column x := by
  have hsorted := List.pairwise_insertionSort (fun x y => column y ≤ column x) l
  obtain ⟨tail, htail⟩ := List.head?_eq_some_iff.mp hx
  rw [orderByDesc] at htail
  rw [htail] at hsorted
  have hmem : y ∈ orderByDesc column l := mem_orderByDesc.mpr hy
  rw [orderByDesc, htail, List.mem_cons] at hmem
  rcases hmem with rfl | hmem
  · exact le_rfl
  · exact List.rel_of_pairwise_cons hsorted hmem

/-- `order_by("-column").first()`, when no two rows have the same value. -/
theorem head?_orderByDesc_eq_some_iff (hinj : ∀ x ∈ l, ∀ y ∈ l, column x = column y → x = y) :
    (orderByDesc column l).head? = some x ↔ x ∈ l ∧ ∀ y ∈ l, column y ≤ column x := by
  constructor
  · exact fun h => ⟨mem_orderByDesc.mp (List.mem_of_mem_head? h), fun y hy => le_of_head?_orderByDesc h hy⟩
  · rintro ⟨hx, hmax⟩
    cases hhead : (orderByDesc column l).head? with
    | none =>
        rw [List.head?_eq_none_iff] at hhead
        exact absurd (mem_orderByDesc.mpr hx) (by rw [hhead]; exact List.not_mem_nil)
    | some z =>
        have hz : z ∈ l := mem_orderByDesc.mp (List.mem_of_mem_head? hhead)
        rw [hinj z hz x hx (le_antisymm (hmax z hz) (le_of_head?_orderByDesc hhead hx))]

/-- In a sorted list, the first element that meets a condition is the least one that does. -/
theorem le_of_find?_sorted {p : β → Bool} {l : List β} {x y : β} (hsorted : l.Pairwise (· ≤ ·))
    (hx : l.find? p = some x) (hy : y ∈ l) (hp : p y = true) : x ≤ y := by
  obtain ⟨_, before, after, rfl, hbefore⟩ := List.find?_eq_some_iff_append.mp hx
  rcases List.mem_append.mp hy with hy | hy
  · exact absurd hp (by simpa using hbefore y hy)
  · rcases List.mem_cons.mp hy with rfl | hy
    · exact le_rfl
    · exact List.rel_of_pairwise_cons (List.pairwise_append.mp hsorted).2.1 hy

theorem sorted_orderBy_id (l : List β) : (orderBy id l).Pairwise (· ≤ ·) :=
  List.pairwise_insertionSort (· ≤ ·) l

end Order

/-! ## Updated rows -/

/-- After an update that brings no row into the filter and keeps the column of those that stay, the column under
the filter has lost rows only. -/
theorem sublist_map_filter_map {f : α → α} {p : α → Prop} [DecidablePred p] {column : α → β}
    (hf : ∀ x, p (f x) → p x ∧ column (f x) = column x) (l : List α) :
    (((l.map f).filter fun x => p x).map column).Sublist ((l.filter fun x => p x).map column) := by
  induction l with
  | nil => exact List.Sublist.refl _
  | cons x l ih =>
      simp only [List.map_cons, List.filter_cons, decide_eq_true_eq]
      by_cases hfx : p (f x)
      · obtain ⟨hx, hcolumn⟩ := hf x hfx
        simp only [hfx, hx, if_true, List.map_cons, hcolumn]
        exact ih.cons_cons _
      · simp only [hfx, if_false]
        split
        · exact ih.cons _
        · exact ih

/-! ## Conditions on a row and on the rows related to it -/

inductive Q (α : Type u) (β : Type v) where
  /-- A condition on columns of the row. -/
  | column (p : α → Bool)
  /-- A condition on a column of a related row. -/
  | related (p : β → Bool)
  | and (q r : Q α β)
  | or (q r : Q α β)
  | not (q : Q α β)

namespace Q

/-- The condition on a row, of which `relatedSet` are the related rows and `joined` the one of the join. -/
def holds (a : α) (relatedSet : List β) (joined : Option β) (branchNegated : Bool) : Q α β → Bool
  | column p => p a
  | related p => if branchNegated then relatedSet.any p else joined.any p
  | and q r => q.holds a relatedSet joined branchNegated && r.holds a relatedSet joined branchNegated
  | or q r => q.holds a relatedSet joined branchNegated || r.holds a relatedSet joined branchNegated
  | not q => !q.holds a relatedSet joined true

/-- The rows of the left join. -/
def join (relatedSet : List β) : List (Option β) := if relatedSet.isEmpty then [none] else relatedSet.map some

/-- `filter(*qs)` selects the row. -/
def selects (a : α) (relatedSet : List β) (qs : List (Q α β)) : Bool :=
  (join relatedSet).any fun joined => qs.all fun q => q.holds a relatedSet joined false

/-- `or_queries`. -/
def orQueries : List (Q α β) → Option (Q α β)
  | [] => none
  | q :: qs => some (qs.foldl or q)

variable {a : α} {relatedSet : List β} {q : Q α β} {qs : List (Q α β)}

theorem join_ne_nil (relatedSet : List β) : join relatedSet ≠ [] := by
  unfold join
  split
  · simp
  · rename_i h
    simpa using h

/-- A condition that does not bear on the joined row. -/
theorem selects_of_steady (b : Bool) (h : ∀ joined, q.holds a relatedSet joined false = b) :
    selects a relatedSet [q] = b := by
  unfold selects
  simp only [List.all_cons, List.all_nil, Bool.and_true, h]
  obtain ⟨joined, rest, hjoin⟩ := List.exists_cons_of_ne_nil (join_ne_nil relatedSet)
  rw [hjoin]
  cases b <;> simp

theorem selects_column (p : α → Bool) : selects a relatedSet [column p] = p a :=
  selects_of_steady (p a) fun _ => rfl

/-- Two conditions on the relation are met by one related row. -/
theorem selects_related_and (p p' : β → Bool) :
    selects a relatedSet [and (related p) (related p')] = relatedSet.any fun b => p b && p' b := by
  cases relatedSet with
  | nil => rfl
  | cons b rest => simp [selects, join, holds, List.any_map, Function.comp_def]

end Q

end Itou.Lib
