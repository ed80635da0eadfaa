import Mathlib.Algebra.BigOperators.Group.List.Basic
import Mathlib.Algebra.Group.Basic
import Mathlib.Data.List.AList
import Mathlib.Tactic.Abel

/-!
# Tables with a primary key

A table maps a primary key to a row. A statement that changes one row gives the new table and the
row change that a row trigger is fired with (`TG_OP`, `OLD` and `NEW`).
-/

namespace Itou.Lib

universe u v

/-- Rows of type `ρ` under a numeric primary key. A key is there once (`AList.nodupKeys`). -/
abbrev Table (ρ : Type u) := AList (fun _ : Nat => ρ)

namespace Table

variable {ρ : Type u} {β : Type v}

/-- The rows, without their keys. -/
def rows (t : Table ρ) : List ρ := t.entries.map Sigma.snd

/-- The sum of a column over all the rows. -/
def sum [AddMonoid β] (f : ρ → β) (t : Table ρ) : β := (t.rows.map f).sum

/-! ## Rows -/

/-- A row of the table is the row of some key. -/
theorem mem_rows {t : Table ρ} {r : ρ} : r ∈ t.rows ↔ ∃ k, t.lookup k = some r := by
  simp only [rows, List.mem_map, Sigma.exists, exists_eq_right]
  exact ⟨fun ⟨k, h⟩ => ⟨k, AList.mem_lookup_iff.mpr h⟩, fun ⟨k, h⟩ => ⟨k, AList.mem_lookup_iff.mp h⟩⟩

theorem rows_erase (t : Table ρ) (k : Nat) : Table.rows (t.erase k) = (t.entries.kerase k).map Sigma.snd := rfl

theorem rows_insert {t : Table ρ} {k : Nat} (r : ρ) :
    Table.rows (t.insert k r) = r :: Table.rows (t.erase k) := by
  rw [rows, AList.entries_insert, List.map_cons, rows_erase]

theorem mem_of_mem_rows_erase {t : Table ρ} {k : Nat} {x : ρ} (h : x ∈ Table.rows (t.erase k)) : x ∈ t.rows := by
  rw [rows_erase, List.mem_map] at h
  obtain ⟨e, he, rfl⟩ := h
  exact List.mem_map_of_mem ((List.kerase_sublist k _).subset he)

theorem rows_insert_cases {t : Table ρ} {k : Nat} {r x : ρ} (h : x ∈ Table.rows (t.insert k r)) :
    x = r ∨ x ∈ t.rows := by
  rw [rows_insert, List.mem_cons] at h
  exact h.imp id mem_of_mem_rows_erase

theorem erase_of_notMem {t : Table ρ} {k : Nat} (h : k ∉ t) : t.erase k = t := by
  apply AList.ext
  exact List.kerase_of_notMem_keys h

/-! ## Sums -/

theorem sum_insert [AddMonoid β] (f : ρ → β) (t : Table ρ) (k : Nat) (r : ρ) :
    Table.sum f (t.insert k r) = f r + Table.sum f (t.erase k) := by
  simp [sum, rows_insert]

theorem sum_of_lookup [AddCommMonoid β] (f : ρ → β) {t : Table ρ} {k : Nat} {r : ρ}
    (h : t.lookup k = some r) : t.sum f = f r + Table.sum f (t.erase k) := by
  have hmem : k ∈ t.keys := AList.lookup_isSome.mp (by simp [h])
  obtain ⟨r', l₁, l₂, _, hl, he⟩ := List.exists_of_kerase (l := t.entries) hmem
  have hr : r' = r := by
    have : (⟨k, r'⟩ : Sigma fun _ => ρ) ∈ t.entries := by simp [hl]
    have hk := AList.mem_lookup_iff.mpr this
    rw [h] at hk
    exact (Option.mem_some_iff.mp hk).symm
  subst hr
  have he' : (t.erase k).entries = l₁ ++ l₂ := he
  simp only [sum, rows, hl, he', List.map_append, List.map_cons, List.sum_append, List.sum_cons]
  abel

end Table

/-! ## Statements on one row -/

/-- An `INSERT`, an `UPDATE` or a `DELETE` of the row of a given key. -/
inductive RowOp (ρ : Type u) where
  | insert (k : Nat) (new : ρ)
  | update (k : Nat) (new : ρ)
  | delete (k : Nat)
  deriving DecidableEq

/-- What a row trigger is fired with: `TG_OP`, and the rows `OLD` and `NEW` that this operation has. -/
inductive Fired (ρ : Type u) where
  | insert (new : ρ)
  | update (old new : ρ)
  | delete (old : ρ)
  deriving DecidableEq

variable {ρ : Type u} {β : Type v}

/-- The key that the statement names. -/
def RowOp.key : RowOp ρ → Nat
  | .insert k _ | .update k _ | .delete k => k

/-- The row that the statement writes: an `INSERT` or an `UPDATE` has one. -/
def RowOp.new : RowOp ρ → Option ρ
  | .insert _ new | .update _ new => some new
  | .delete _ => none

/-- Run the statement on its table. An `INSERT` on a key that exists is refused; the others need the row. -/
def RowOp.exec (t : Table ρ) : RowOp ρ → Option (Table ρ × Fired ρ)
  | .insert k new => if k ∈ t then none else some (t.insert k new, .insert new)
  | .update k new => (t.lookup k).map fun old => (t.insert k new, .update old new)
  | .delete k => (t.lookup k).map fun old => (t.erase k, .delete old)

/-- What the change of one row adds to the sum of the column `f`. -/
def Fired.delta [AddCommGroup β] (f : ρ → β) : Fired ρ → β
  | .insert new => f new
  | .update old new => f new - f old
  | .delete old => -f old

/-- The sum of a column follows the row changes. -/
theorem RowOp.sum_exec [AddCommGroup β] (f : ρ → β) {t t' : Table ρ} {op : RowOp ρ} {fired : Fired ρ}
    (h : op.exec t = some (t', fired)) : t'.sum f = t.sum f + fired.delta f := by
  cases op with
  | insert k new =>
      simp only [RowOp.exec, Option.ite_none_left_eq_some, Option.some.injEq, Prod.mk.injEq] at h
      obtain ⟨hk, rfl, rfl⟩ := h
      rw [Table.sum_insert, Table.erase_of_notMem hk, Fired.delta, add_comm]
  | update k new =>
      simp only [RowOp.exec, Option.map_eq_some_iff, Prod.mk.injEq] at h
      obtain ⟨old, hold, rfl, rfl⟩ := h
      rw [Table.sum_insert, Table.sum_of_lookup f hold, Fired.delta]
      abel
  | delete k =>
      simp only [RowOp.exec, Option.map_eq_some_iff, Prod.mk.injEq] at h
      obtain ⟨old, hold, rfl, rfl⟩ := h
      rw [Table.sum_of_lookup f hold, Fired.delta]
      abel

/-- The rows of the new table are old rows, or the row that the statement wrote. -/
theorem RowOp.rows_exec {t t' : Table ρ} {op : RowOp ρ} {fired : Fired ρ} {r : ρ}
    (h : op.exec t = some (t', fired)) (hr : r ∈ t'.rows) : r ∈ t.rows ∨ r ∈ op.new := by
  cases op with
  | insert k new =>
      simp only [RowOp.exec, Option.ite_none_left_eq_some, Option.some.injEq, Prod.mk.injEq] at h
      obtain ⟨_, rfl, rfl⟩ := h
      rcases Table.rows_insert_cases hr with rfl | hr
      · exact Or.inr rfl
      · exact Or.inl hr
  | update k new =>
      simp only [RowOp.exec, Option.map_eq_some_iff, Prod.mk.injEq] at h
      obtain ⟨old, _, rfl, rfl⟩ := h
      rcases Table.rows_insert_cases hr with rfl | hr
      · exact Or.inr rfl
      · exact Or.inl hr
  | delete k =>
      simp only [RowOp.exec, Option.map_eq_some_iff, Prod.mk.injEq] at h
      obtain ⟨old, _, rfl, rfl⟩ := h
      exact Or.inl (Table.mem_of_mem_rows_erase hr)

end Itou.Lib
