import Mathlib.Data.List.AList

/-!
# Differences between a table and a collection

The rows of a table are compared with the items of a collection that have their keys. The differences are then written one
after the other: a run over distinct keys acts on each key alone.
-/

namespace Itou.Lib

universe u v w x

variable {κ : Type u} {ρ : Type v} {ι : Type w} {σ : Type x} [DecidableEq κ]

/-- A collection that a table is compared with. `changed` tells the items whose watched data is not that of the row. -/
structure Differ (κ : Type u) (ρ : Type v) (ι : Type w) where
  key : ι → κ
  changed : ρ → ι → Bool

inductive DiffItem (κ : Type u) (ρ : Type v) (ι : Type w) where
  | added (key : κ) (item : ι)
  | updated (key : κ) (row : ρ) (item : ι)
  | removed (key : κ) (row : ρ)

namespace Differ

/-- The difference that an item of the collection makes. -/
def compare (d : Differ κ ρ ι) (current : AList fun _ : κ => ρ) (item : ι) : Option (DiffItem κ ρ ι) :=
  match current.lookup (d.key item) with
  | none => some (.added (d.key item) item)
  | some row => if d.changed row item then some (.updated (d.key item) row item) else none

/-- The rows that the collection does not have. -/
def removed (d : Differ κ ρ ι) (current : AList fun _ : κ => ρ) (items : List ι) : List (DiffItem κ ρ ι) :=
  current.entries.filterMap fun e => if e.1 ∈ items.map d.key then none else some (.removed e.1 e.2)

/-- All the differences. The removals come last. -/
def diff (d : Differ κ ρ ι) (current : AList fun _ : κ => ρ) (items : List ι) : List (DiffItem κ ρ ι) :=
  items.filterMap (d.compare current) ++ d.removed current items

end Differ

def DiffItem.key : DiffItem κ ρ ι → κ
  | added key _ | updated key _ _ | removed key _ => key

theorem Differ.compare_of_none {d : Differ κ ρ ι} {current : AList fun _ : κ => ρ} {item : ι}
    (h : current.lookup (d.key item) = none) : d.compare current item = some (.added (d.key item) item) := by
  rw [compare, h]

theorem Differ.compare_of_some {d : Differ κ ρ ι} {current : AList fun _ : κ => ρ} {item : ι} {row : ρ}
    (h : current.lookup (d.key item) = some row) :
    d.compare current item = if d.changed row item then some (.updated (d.key item) row item) else none := by
  rw [compare, h]

/-- The key of a removal. -/
def DiffItem.removedKey? : DiffItem κ ρ ι → Option κ
  | removed key _ => some key
  | added _ _ | updated _ _ _ => none

/-- Each row is replaced by what `f` gives under its key. -/
def mapRows (t : AList fun _ : κ => ρ) (f : κ → ρ → ρ) : AList fun _ : κ => ρ where
  entries := t.entries.map fun e => ⟨e.1, f e.1 e.2⟩
  nodupKeys := by
    have hkeys : (t.entries.map fun e => (⟨e.1, f e.1 e.2⟩ : Sigma fun _ : κ => ρ)).keys = t.entries.keys := by
      simp only [List.keys, List.map_map]
      rfl
    exact (congrArg List.Nodup hkeys).mpr t.nodupKeys

theorem lookup_mapRows (t : AList fun _ : κ => ρ) (f : κ → ρ → ρ) (k : κ) :
    (mapRows t f).lookup k = (t.lookup k).map (f k) :=
  List.dlookup_map₂ k

theorem mapRows_eq_self {t : AList fun _ : κ => ρ} {f : κ → ρ → ρ} (h : ∀ k r, t.lookup k = some r → f k r = r) :
    mapRows t f = t := by
  apply AList.ext
  refine (List.map_congr_left fun e he => ?_).trans (List.map_id _)
  rw [h e.1 e.2 (AList.mem_lookup_iff.mpr he)]
  rfl

/-- `UPDATE … WHERE p`, on columns outside the key. -/
def updateWhere (t : AList fun _ : κ => ρ) (p : κ → ρ → Bool) (f : ρ → ρ) : AList fun _ : κ => ρ :=
  mapRows t fun k r => if p k r then f r else r

theorem lookup_updateWhere (t : AList fun _ : κ => ρ) (p : κ → ρ → Bool) (f : ρ → ρ) (k : κ) :
    (updateWhere t p f).lookup k = (t.lookup k).map fun r => if p k r then f r else r :=
  lookup_mapRows t _ k

/-! ## Removals -/

theorem filterMap_removedKey?_compare (d : Differ κ ρ ι) (current : AList fun _ : κ => ρ) (items : List ι) :
    (items.filterMap (d.compare current)).filterMap DiffItem.removedKey? = [] := by
  refine List.filterMap_eq_nil_iff.mpr fun x hx => ?_
  obtain ⟨item, -, hitem⟩ := List.mem_filterMap.mp hx
  unfold Differ.compare at hitem
  split at hitem
  · cases hitem
    rfl
  · split at hitem
    · cases hitem
      rfl
    · cases hitem

/-- The keys of the removals: those of the rows that no item of the collection has. -/
theorem mem_removedKeys {d : Differ κ ρ ι} {current : AList fun _ : κ => ρ} {items : List ι} {k : κ} :
    k ∈ (d.diff current items).filterMap DiffItem.removedKey? ↔ k ∈ current ∧ k ∉ items.map d.key := by
  rw [Differ.diff, List.filterMap_append, filterMap_removedKey?_compare, List.nil_append]
  simp only [Differ.removed, List.filterMap_filterMap, List.mem_filterMap]
  constructor
  · rintro ⟨e, he, hk⟩
    split at hk
    · cases hk
    · rename_i hnot
      cases hk
      exact ⟨List.mem_map_of_mem he, hnot⟩
  · rintro ⟨hk, hnot⟩
    obtain ⟨e, he, rfl⟩ := List.mem_map.mp hk
    exact ⟨e, he, by rw [if_neg hnot]; rfl⟩

/-! ## Writing the differences -/

section Fold

/-- A run of statements over distinct keys acts on each key alone. -/
theorem lookup_foldlM_of_nodup {key : σ → κ} {write : AList (fun _ : κ => ρ) → σ → Option (AList fun _ : κ => ρ)}
    {f : σ → Option ρ → Option ρ}
    (hwrite : ∀ t x t', write t x = some t' → ∀ k, t'.lookup k = if key x = k then f x (t.lookup k) else t.lookup k)
    {t t' : AList fun _ : κ => ρ} {xs : List σ} (hnodup : (xs.map key).Nodup) (h : xs.foldlM write t = some t') (k : κ) :
    t'.lookup k = (xs.find? fun x => key x = k).elim (t.lookup k) fun x => f x (t.lookup k) := by
  induction xs generalizing t with
  | nil =>
      cases h
      rfl
  | cons x xs ih =>
      rw [List.foldlM_cons] at h
      obtain ⟨t₁, ht₁, h⟩ := Option.bind_eq_some_iff.mp h
      rw [List.map_cons, List.nodup_cons] at hnodup
      rw [ih hnodup.2 h, List.find?_cons, hwrite t x t₁ ht₁ k]
      by_cases hk : key x = k
      · subst hk
        have hnone : xs.find? (fun y => key y = key x) = none := by
          refine List.find?_eq_none.mpr fun y hy => ?_
          rw [decide_eq_true_eq]
          intro heq
          exact hnodup.1 (heq ▸ List.mem_map_of_mem hy)
        simp only [hnone, decide_true, if_true, Option.elim]
      · simp only [hk, decide_false, if_false]

theorem key_compare {d : Differ κ ρ ι} {current : AList fun _ : κ => ρ} {item : ι} {x : DiffItem κ ρ ι}
    (h : d.compare current item = some x) : x.key = d.key item := by
  unfold Differ.compare at h
  split at h
  · cases h
    rfl
  · split at h
    · cases h
      rfl
    · cases h

theorem nodup_keys_compare {d : Differ κ ρ ι} {items : List ι} (hnodup : (items.map d.key).Nodup)
    (current : AList fun _ : κ => ρ) : ((items.filterMap (d.compare current)).map DiffItem.key).Nodup := by
  induction items with
  | nil => exact List.nodup_nil
  | cons item items ih =>
      rw [List.map_cons, List.nodup_cons] at hnodup
      rw [List.filterMap_cons]
      split
      · exact ih hnodup.2
      · rename_i x hx
        rw [List.map_cons, List.nodup_cons]
        refine ⟨fun hmem => ?_, ih hnodup.2⟩
        obtain ⟨y, hy, hkey⟩ := List.mem_map.mp hmem
        obtain ⟨item', hitem', hy⟩ := List.mem_filterMap.mp hy
        rw [key_compare hx, key_compare hy] at hkey
        exact hnodup.1 (hkey ▸ List.mem_map_of_mem hitem')

theorem find?_compare {d : Differ κ ρ ι} {items : List ι} (hnodup : (items.map d.key).Nodup)
    (current : AList fun _ : κ => ρ) (k : κ) :
    (items.filterMap (d.compare current)).find? (fun x => x.key = k) =
      (items.find? fun item => d.key item = k).bind (d.compare current) := by
  induction items with
  | nil => rfl
  | cons item items ih =>
      rw [List.map_cons, List.nodup_cons] at hnodup
      by_cases hk : d.key item = k
      · have hnone : items.find? (fun item => d.key item = k) = none := by
          refine List.find?_eq_none.mpr fun y hy => ?_
          rw [decide_eq_true_eq]
          intro heq
          exact hnodup.1 ((heq.trans hk.symm) ▸ List.mem_map_of_mem hy)
        rw [List.find?_cons_of_pos (by simpa using hk), List.filterMap_cons, Option.bind_some]
        split
        · rename_i hx
          rw [ih hnodup.2, hnone, hx]
          rfl
        · rename_i x hx
          rw [List.find?_cons_of_pos (by simpa using (key_compare hx).trans hk), hx]
      · rw [List.find?_cons_of_neg (by simpa using hk), ← ih hnodup.2, List.filterMap_cons]
        split
        · rfl
        · rename_i x hx
          rw [List.find?_cons_of_neg (by simpa [key_compare hx] using hk)]

/-- What the loop over the differences leaves under a key, when a removal writes nothing. -/
theorem lookup_foldlM_diff {d : Differ κ ρ ι}
    {write : AList (fun _ : κ => ρ) → DiffItem κ ρ ι → Option (AList fun _ : κ => ρ)}
    {f : DiffItem κ ρ ι → Option ρ → Option ρ}
    (hwrite : ∀ t x t', write t x = some t' → ∀ k, t'.lookup k = if x.key = k then f x (t.lookup k) else t.lookup k)
    (hremoved : ∀ t k r, write t (.removed k r) = some t) {t t' : AList fun _ : κ => ρ} {items : List ι}
    (hnodup : (items.map d.key).Nodup) (h : (d.diff t items).foldlM write t = some t') (k : κ) :
    t'.lookup k = ((items.find? fun item => d.key item = k).bind (d.compare t)).elim (t.lookup k)
      fun x => f x (t.lookup k) := by
  rw [Differ.diff, List.foldlM_append] at h
  obtain ⟨t₁, ht₁, h⟩ := Option.bind_eq_some_iff.mp h
  have hsame : ∀ xs : List (DiffItem κ ρ ι), (∀ x ∈ xs, ∃ k r, x = .removed k r) → xs.foldlM write t₁ = some t₁ := by
    intro xs hxs
    induction xs with
    | nil => rfl
    | cons x xs ih =>
        obtain ⟨k, r, rfl⟩ := hxs x List.mem_cons_self
        rw [List.foldlM_cons, hremoved]
        exact ih fun y hy => hxs y (List.mem_cons_of_mem _ hy)
  rw [hsame _ fun x hx => ?removals] at h
  case removals =>
    obtain ⟨e, -, he⟩ := List.mem_filterMap.mp hx
    split at he
    · cases he
    · cases he
      exact ⟨e.1, e.2, rfl⟩
  cases h
  rw [lookup_foldlM_of_nodup hwrite (nodup_keys_compare hnodup t) ht₁ k, find?_compare hnodup]

end Fold

end Itou.Lib
