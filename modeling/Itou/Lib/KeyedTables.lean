import Mathlib.Data.List.Nodup

/-!
# Tables with a unique constraint

A table is the list of its rows. Two columns tell its rows apart: the primary key, and the key of the unique
constraint. A statement that would break one of them is refused, and gives `none`.
-/

namespace Itou.Lib

universe u v

/-- The primary key of a row, and the columns of the unique constraint. -/
structure Columns (ρ : Type u) (κ : Type v) where
  pk : ρ → Nat
  key : ρ → κ

structure KeyedTable {ρ : Type u} {κ : Type v} (c : Columns ρ κ) where
  rows : List ρ
  pks : (rows.map c.pk).Nodup
  keys : (rows.map c.key).Nodup

namespace KeyedTable

variable {ρ : Type u} {κ : Type v} {c : Columns ρ κ}

@[ext] theorem ext {t t' : KeyedTable c} (h : t.rows = t'.rows) : t = t' := by
  cases t with
  | mk rows pks keys =>
      cases t' with
      | mk rows' pks' keys' =>
          cases h
          rfl

instance [DecidableEq ρ] : DecidableEq (KeyedTable c) := fun t t' =>
  decidable_of_iff (t.rows = t'.rows) ⟨ext, congrArg rows⟩

instance : EmptyCollection (KeyedTable c) := ⟨[], List.nodup_nil, List.nodup_nil⟩

/-- The table with these rows, when the constraints allow it. -/
def ofRows [DecidableEq κ] (rows : List ρ) : Option (KeyedTable c) :=
  if h : (rows.map c.pk).Nodup ∧ (rows.map c.key).Nodup then some ⟨rows, h.1, h.2⟩ else none

/-- `INSERT`. -/
def insert [DecidableEq κ] (t : KeyedTable c) (r : ρ) : Option (KeyedTable c) := ofRows (t.rows ++ [r])

/-- `UPDATE` of the row that has the primary key of `r`. -/
def update [DecidableEq κ] (t : KeyedTable c) (r : ρ) : Option (KeyedTable c) :=
  ofRows (t.rows.map fun s => if c.pk s = c.pk r then r else s)

/-- `UPDATE` of columns outside the keys, `WHERE p`. -/
def modify (t : KeyedTable c) (p : ρ → Bool) (f : ρ → ρ) (h : ∀ r, c.pk (f r) = c.pk r ∧ c.key (f r) = c.key r) :
    KeyedTable c where
  rows := t.rows.map fun r => if p r then f r else r
  pks := by
    have heq : (t.rows.map fun r => if p r then f r else r).map c.pk = t.rows.map c.pk := by
      rw [List.map_map]
      exact List.map_congr_left fun r _ => by simp only [Function.comp]; split <;> simp [(h r).1]
    exact heq ▸ t.pks
  keys := by
    have heq : (t.rows.map fun r => if p r then f r else r).map c.key = t.rows.map c.key := by
      rw [List.map_map]
      exact List.map_congr_left fun r _ => by simp only [Function.comp]; split <;> simp [(h r).2]
    exact heq ▸ t.keys

/-- `DELETE … WHERE p`. -/
def delete (t : KeyedTable c) (p : ρ → Bool) : KeyedTable c where
  rows := t.rows.filter fun r => !p r
  pks := t.pks.sublist (List.filter_sublist.map _)
  keys := t.keys.sublist (List.filter_sublist.map _)

/-- The row of a key. -/
def row [DecidableEq κ] (t : KeyedTable c) (k : κ) : Option ρ := t.rows.find? fun r => c.key r = k

/-- `INSERT … ON CONFLICT (key) DO UPDATE`. -/
def insertOrModify [DecidableEq κ] (t : KeyedTable c) (r : ρ) (f : ρ → ρ)
    (h : ∀ s, c.pk (f s) = c.pk s ∧ c.key (f s) = c.key s) : Option (KeyedTable c) :=
  match t.row (c.key r) with
  | some _ => some (t.modify (fun s => c.key s = c.key r) f h)
  | none => t.insert r

/-- A primary key that no row has. -/
def freshPk (t : KeyedTable c) : Nat := (t.rows.map c.pk).max?.getD 0 + 1

/-! ## Rows -/

section Rows

variable {t : KeyedTable c} {r s : ρ}

/-- A primary key finds one row. -/
theorem eq_of_pk (hr : r ∈ t.rows) (hs : s ∈ t.rows) (h : c.pk r = c.pk s) : r = s :=
  List.inj_on_of_nodup_map t.pks hr hs h

/-- So does the key. -/
theorem eq_of_key (hr : r ∈ t.rows) (hs : s ∈ t.rows) (h : c.key r = c.key s) : r = s :=
  List.inj_on_of_nodup_map t.keys hr hs h

theorem mem_modify {p : ρ → Bool} {f : ρ → ρ} {h : ∀ r, c.pk (f r) = c.pk r ∧ c.key (f r) = c.key r} :
    r ∈ (t.modify p f h).rows ↔ ∃ s ∈ t.rows, (if p s then f s else s) = r :=
  List.mem_map

theorem mem_delete {p : ρ → Bool} : r ∈ (t.delete p).rows ↔ r ∈ t.rows ∧ p r = false := by
  simp [delete]

theorem ne_freshPk (h : r ∈ t.rows) : c.pk r ≠ t.freshPk := by
  have hle : c.pk r ≤ (t.rows.map c.pk).max?.getD 0 := List.le_max?_getD_of_mem (List.mem_map_of_mem h)
  unfold freshPk
  omega

end Rows

/-! ## Statements that the constraints can refuse -/

section Constraints

variable [DecidableEq κ] {t t' : KeyedTable c} {r s : ρ}

theorem ofRows_eq_some {rows : List ρ} :
    (ofRows rows : Option (KeyedTable c)) = some t ↔ rows = t.rows := by
  unfold ofRows
  split
  · rename_i h
    rw [Option.some.injEq]
    exact ⟨fun heq => heq ▸ rfl, fun heq => ext heq⟩
  · rename_i h
    constructor
    · intro heq
      cases heq
    · rintro rfl
      exact absurd ⟨t.pks, t.keys⟩ h

theorem ofRows_eq_none {rows : List ρ} :
    (ofRows rows : Option (KeyedTable c)) = none ↔ ¬ ((rows.map c.pk).Nodup ∧ (rows.map c.key).Nodup) := by
  unfold ofRows
  split
  · rename_i h
    simp [h]
  · rename_i h
    simp [h]

theorem insert_eq_some : t.insert r = some t' ↔ t'.rows = t.rows ++ [r] :=
  ofRows_eq_some.trans eq_comm

theorem update_eq_some : t.update r = some t' ↔ t'.rows = t.rows.map fun s => if c.pk s = c.pk r then r else s :=
  ofRows_eq_some.trans eq_comm

/-- An `INSERT` under a new primary key is refused for the key alone. -/
theorem insert_eq_none (h : c.pk r = t.freshPk) : t.insert r = none ↔ ∃ s ∈ t.rows, c.key s = c.key r := by
  have hpk : (List.map c.pk (t.rows ++ [r])).Nodup := by
    rw [List.map_append, List.nodup_append]
    refine ⟨t.pks, by simp, ?_⟩
    rintro n hn m hm rfl
    obtain ⟨s, hs, rfl⟩ := List.mem_map.mp hn
    exact ne_freshPk hs (by simpa [h] using hm)
  have hkey : (List.map c.key (t.rows ++ [r])).Nodup ↔ ∀ s ∈ t.rows, c.key s ≠ c.key r := by
    rw [List.map_append, List.nodup_append]
    simp [t.keys]
  rw [insert, ofRows_eq_none, hkey]
  simp only [hpk, true_and, not_forall, not_not, exists_prop]

/-- An `UPDATE` of a row of the table is refused when another row has its new key. -/
theorem update_eq_none (hr : ∃ s ∈ t.rows, c.pk s = c.pk r) :
    t.update r = none ↔ ∃ s ∈ t.rows, c.key s = c.key r ∧ c.pk s ≠ c.pk r := by
  obtain ⟨old, hold, hpk⟩ := hr
  have hpks : (t.rows.map fun s => if c.pk s = c.pk r then r else s).map c.pk = t.rows.map c.pk := by
    rw [List.map_map]
    refine List.map_congr_left fun s _ => ?_
    simp only [Function.comp]
    split
    · rename_i h
      exact h.symm
    · rfl
  rw [update, ofRows_eq_none, hpks]
  simp only [t.pks, true_and]
  constructor
  · intro h
    by_contra hnone
    simp only [not_exists, not_and, not_not] at hnone
    apply h
    rw [List.map_map]
    refine List.Nodup.map_on ?_ t.pks.of_map
    intro x hx y hy hxy
    simp only [Function.comp] at hxy
    by_cases hxr : c.pk x = c.pk r
    · by_cases hyr : c.pk y = c.pk r
      · exact eq_of_pk hx hy (hxr.trans hyr.symm)
      · rw [if_pos hxr, if_neg hyr] at hxy
        exact absurd (hnone y hy hxy.symm) hyr
    · by_cases hyr : c.pk y = c.pk r
      · rw [if_neg hxr, if_pos hyr] at hxy
        exact absurd (hnone x hx hxy) hxr
      · rw [if_neg hxr, if_neg hyr] at hxy
        exact eq_of_key hx hy hxy
  · rintro ⟨s, hs, hkey, hne⟩ hnodup
    rw [List.map_map] at hnodup
    have heq := List.inj_on_of_nodup_map hnodup hold hs (by simp [Function.comp, hpk, hne, hkey])
    exact hne (heq ▸ hpk)

end Constraints

/-! ## The row of a key -/

section Row

variable [DecidableEq κ] {t t' : KeyedTable c} {r : ρ} {k : κ}

theorem row_eq_some : t.row k = some r ↔ r ∈ t.rows ∧ c.key r = k := by
  constructor
  · intro h
    exact ⟨List.mem_of_find?_eq_some h, by simpa using List.find?_some h⟩
  · rintro ⟨hr, rfl⟩
    cases h : t.row (c.key r) with
    | none => exact absurd (List.find?_eq_none.mp h r hr) (by simp)
    | some s => rw [eq_of_key (List.mem_of_find?_eq_some h) hr (by simpa using List.find?_some h)]

theorem row_eq_none : t.row k = none ↔ ∀ r ∈ t.rows, c.key r ≠ k := by
  simp [row, List.find?_eq_none]

theorem row_modify {p : ρ → Bool} {f : ρ → ρ} {h : ∀ r, c.pk (f r) = c.pk r ∧ c.key (f r) = c.key r} :
    (t.modify p f h).row k = (t.row k).map fun r => if p r then f r else r := by
  have hkey : ∀ s, c.key (if p s then f s else s) = c.key s := by
    intro s
    split
    · exact (h s).2
    · rfl
  cases hrow : t.row k with
  | none =>
      rw [row_eq_none] at hrow
      rw [Option.map_none, row_eq_none]
      intro r hr
      obtain ⟨s, hs, rfl⟩ := mem_modify.mp hr
      rw [hkey]
      exact hrow s hs
  | some r =>
      obtain ⟨hr, rfl⟩ := row_eq_some.mp hrow
      exact row_eq_some.mpr ⟨mem_modify.mpr ⟨r, hr, rfl⟩, hkey r⟩

theorem row_delete {p : ρ → Bool} : (t.delete p).row k = (t.row k).filter fun r => !p r := by
  cases hrow : t.row k with
  | none =>
      rw [row_eq_none] at hrow
      rw [Option.filter_none, row_eq_none]
      exact fun s hs => hrow s (mem_delete.mp hs).1
  | some r =>
      obtain ⟨hr, rfl⟩ := row_eq_some.mp hrow
      by_cases hp : p r
      · rw [Option.filter_some_neg (by simp [hp]), row_eq_none]
        intro s hs hkey
        obtain ⟨hs, hps⟩ := mem_delete.mp hs
        rw [eq_of_key hs hr hkey, hp] at hps
        cases hps
      · rw [Option.filter_some_pos (by simp [hp]), row_eq_some, mem_delete]
        exact ⟨⟨hr, by simpa using hp⟩, rfl⟩

/-- Under a new primary key the statement is accepted. It writes the row of the key and no other one. -/
theorem insertOrModify_eq_some {f : ρ → ρ} {h : ∀ s, c.pk (f s) = c.pk s ∧ c.key (f s) = c.key s}
    (hpk : c.pk r = t.freshPk) : ∃ t', t.insertOrModify r f h = some t' ∧
      t'.row (c.key r) = some ((t.row (c.key r)).elim r f) ∧ ∀ k, k ≠ c.key r → t'.row k = t.row k := by
  unfold insertOrModify
  cases hrow : t.row (c.key r) with
  | none =>
      cases hinsert : t.insert r with
      | none =>
          obtain ⟨s, hs, hkey⟩ := (insert_eq_none hpk).mp hinsert
          exact absurd hkey (row_eq_none.mp hrow s hs)
      | some t' =>
          have hrows := insert_eq_some.mp hinsert
          refine ⟨t', rfl, row_eq_some.mpr ⟨by simp [hrows], rfl⟩, fun k hk => ?_⟩
          rw [row, hrows, List.find?_append, List.find?_cons_of_neg (by simpa using hk.symm), List.find?_nil,
            Option.or_none]
          rfl
  | some s =>
      refine ⟨_, rfl, ?_, fun k hk => ?_⟩
      · rw [row_modify, hrow]
        simp [(row_eq_some.mp hrow).2]
      · rw [row_modify]
        cases hk' : t.row k with
        | none => rfl
        | some u =>
            have hne : c.key u ≠ c.key r := by
              rw [(row_eq_some.mp hk').2]
              exact hk
            simp [hne]

end Row

end KeyedTable

end Itou.Lib
