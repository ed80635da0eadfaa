import Itou.Approvals.Models
import Itou.Lib.Runs
import Mathlib.Tactic.SplitIfs

/-!
# The end date of an approval

The law of the denormalised column `end_at`: it is the end date that the approval had at the start, plus
the days of its own suspensions and prolongations. One statement keeps the law exactly when it does not
move a row with days to another approval.
-/

namespace Itou.Approvals

open Itou.Lib

universe u

variable {ρ : Type u}

/-! ## The trigger -/

/-- What the trigger adds to the end date of the approval `id`. -/
def pushed (period : ρ → Period) (id : Nat) : Fired ρ → Int
  | .delete old => if (period old).approvalId = id then -(period old).duration else 0
  | .insert new => if (period new).approvalId = id then (period new).duration else 0
  | .update old new =>
      if (period new).approvalId = id then -(period old).duration + (period new).duration else 0

theorem mem_pushEndAt {now : DateTime} {t t' : Table Approval} {id : Nat} {days : Int}
    (h : pushEndAt now t id days = some t') (id' : Nat) : id' ∈ t' ↔ id' ∈ t := by
  unfold pushEndAt at h
  cases ha : t.lookup id with
  | none => simp only [ha, Option.some.injEq] at h; rw [h]
  | some a =>
      have hid : id ∈ t := AList.lookup_isSome.mp (by simp [ha])
      simp only [ha, Option.ite_none_right_eq_some, Option.some.injEq] at h
      rw [← h.2, AList.mem_insert]
      exact ⟨fun hor => hor.elim (fun e => e ▸ hid) fun hmem => hmem, Or.inr⟩

theorem lookup_pushEndAt {now : DateTime} {t t' : Table Approval} {id : Nat} {days : Int}
    (h : pushEndAt now t id days = some t') (id' : Nat) :
    (t'.lookup id').map Approval.endAt =
      (t.lookup id').map fun a => a.endAt + if id = id' then days else 0 := by
  unfold pushEndAt at h
  cases ha : t.lookup id with
  | none =>
      simp only [ha, Option.some.injEq] at h
      subst h
      by_cases hid : id = id'
      · subst hid; simp [ha]
      · simp [hid]
  | some a =>
      simp only [ha, Option.ite_none_right_eq_some, Option.some.injEq] at h
      rw [← h.2]
      by_cases hid : id = id'
      · subst hid; simp [ha]
      · simp [AList.lookup_insert_ne (Ne.symm hid), hid]

theorem mem_updateApprovalEndAt {period : ρ → Period} {now : DateTime} {t t' : Table Approval}
    {fired : Fired ρ} (h : updateApprovalEndAt period now t fired = some t') (id : Nat) :
    id ∈ t' ↔ id ∈ t := by
  cases fired with
  | insert new => exact mem_pushEndAt h id
  | update old new => exact mem_pushEndAt h id
  | delete old => exact mem_pushEndAt h id

theorem lookup_updateApprovalEndAt {period : ρ → Period} {now : DateTime} {t t' : Table Approval}
    {fired : Fired ρ} (h : updateApprovalEndAt period now t fired = some t') (id : Nat) :
    (t'.lookup id).map Approval.endAt =
      (t.lookup id).map fun a => a.endAt + pushed period id fired := by
  cases fired with
  | insert new => exact lookup_pushEndAt h id
  | update old new => exact lookup_pushEndAt h id
  | delete old => exact lookup_pushEndAt h id

/-- What an accepted statement has done: the row change, the trigger, and a foreign key that holds. -/
theorem execOn_eq_some {period : ρ → Period} {constraints : Table ρ → ρ → Bool}
    {trigger : Table Approval → Fired ρ → Option (Table Approval)} {approvals approvals' : Table Approval}
    {rows rows' : Table ρ} {op : RowOp ρ}
    (h : execOn period constraints trigger approvals rows op = some (approvals', rows')) :
    ∃ fired, op.exec rows = some (rows', fired) ∧ trigger approvals fired = some approvals' ∧
      ∀ r ∈ op.new, (period r).approvalId ∈ approvals ∧ constraints (rows.erase op.key) r := by
  unfold execOn at h
  cases he : op.exec rows with
  | none => simp [he] at h
  | some res =>
      obtain ⟨rows₁, fired⟩ := res
      simp only [he, Option.ite_none_right_eq_some, Option.map_eq_some_iff, Prod.mk.injEq] at h
      obtain ⟨hnew, approvals₁, htrig, rfl, rfl⟩ := h
      refine ⟨fired, rfl, htrig, fun r hr => ?_⟩
      rw [Option.mem_def.mp hr] at hnew
      simpa using hnew

/-! ## One statement -/

/-- The trigger adds to each approval what its own rows have gained exactly when no row with days is moved. -/
theorem pushed_eq_delta_iff {period : ρ → Period} {approvals : Table Approval} {t t' : Table ρ}
    {op : RowOp ρ} {fired : Fired ρ} (hfk : ∀ r ∈ t.rows, (period r).approvalId ∈ approvals)
    (h : op.exec t = some (t', fired)) :
    (∀ id ∈ approvals, pushed period id fired = fired.delta fun r => (period r).daysFor id) ↔
      KeepsApprovalOn period t op := by
  cases op with
  | insert k new =>
      simp only [RowOp.exec, Option.ite_none_left_eq_some, Option.some.injEq, Prod.mk.injEq] at h
      obtain ⟨_, _, rfl⟩ := h
      simp [pushed, Fired.delta, Period.daysFor, KeepsApprovalOn]
  | delete k =>
      simp only [RowOp.exec, Option.map_eq_some_iff, Prod.mk.injEq] at h
      obtain ⟨old, _, _, rfl⟩ := h
      simp only [pushed, Fired.delta, Period.daysFor, KeepsApprovalOn, iff_true]
      intro id _
      split <;> omega
  | update k new =>
      simp only [RowOp.exec, Option.map_eq_some_iff, Prod.mk.injEq] at h
      obtain ⟨old, hold, _, rfl⟩ := h
      simp only [pushed, Fired.delta, Period.daysFor, Period.duration, KeepsApprovalOn, hold,
        Option.mem_def, Option.some.injEq, forall_eq']
      constructor
      · intro hall
        have hid := hall (period old).approvalId (hfk old (Table.mem_rows.mpr ⟨k, hold⟩))
        by_cases hsame : (period new).approvalId = (period old).approvalId
        · exact Or.inl hsame
        · rw [if_neg hsame, if_neg hsame, if_pos rfl] at hid
          exact Or.inr (by omega)
      · rintro (hsame | hdays) id _
        · rw [hsame]; split <;> omega
        · split_ifs <;> omega

/-- What a statement on one table does to the end dates and to the sum of that table. -/
theorem endAt_execOn {period : ρ → Period} {constraints : Table ρ → ρ → Bool} {now : DateTime}
    {approvals approvals' : Table Approval} {rows rows' : Table ρ} {op : RowOp ρ}
    (h : execOn period constraints (updateApprovalEndAt period now) approvals rows op =
      some (approvals', rows')) :
    ∃ fired, op.exec rows = some (rows', fired) ∧
      (∀ id, (approvals'.lookup id).map Approval.endAt =
        (approvals.lookup id).map fun a => a.endAt + pushed period id fired) ∧
      ∀ id, rows'.sum (fun r => (period r).daysFor id) =
        rows.sum (fun r => (period r).daysFor id) + fired.delta fun r => (period r).daysFor id := by
  obtain ⟨fired, hexec, htrig, _⟩ := execOn_eq_some h
  exact ⟨fired, hexec, lookup_updateApprovalEndAt htrig, fun id => RowOp.sum_exec _ hexec⟩

/-- The approvals stay, and the rows of the table keep a foreign key that holds. -/
theorem foreignKey_execOn {period : ρ → Period} {constraints : Table ρ → ρ → Bool} {now : DateTime}
    {approvals approvals' : Table Approval} {rows rows' : Table ρ} {op : RowOp ρ}
    (h : execOn period constraints (updateApprovalEndAt period now) approvals rows op =
      some (approvals', rows'))
    (hfk : ∀ r ∈ rows.rows, (period r).approvalId ∈ approvals) :
    (∀ id, id ∈ approvals' ↔ id ∈ approvals) ∧ ∀ r ∈ rows'.rows, (period r).approvalId ∈ approvals' := by
  obtain ⟨fired, hexec, htrig, hnew⟩ := execOn_eq_some h
  have hmem := mem_updateApprovalEndAt htrig
  refine ⟨hmem, fun r hr => (hmem _).mpr ?_⟩
  rcases RowOp.rows_exec hexec hr with hr | hr
  · exact hfk r hr
  · exact (hnew r hr).1

/-- When the end dates have moved by `push` and the extensions by `gain`, the law goes on holding exactly when
the two agree on each approval. -/
theorem endAtLaw_iff {approvals₀ : Table Approval} {db db' : Db} {push gain : Nat → Int}
    (hlaw : EndAtLaw approvals₀ db)
    (hend : ∀ id, (db'.approvals.lookup id).map Approval.endAt =
      (db.approvals.lookup id).map fun a => a.endAt + push id)
    (hext : ∀ id, db'.extension id = db.extension id + gain id) :
    EndAtLaw approvals₀ db' ↔ ∀ id ∈ db.approvals, push id = gain id := by
  refine forall_congr' fun id => ?_
  have hid := hlaw id
  rw [hend, hext]
  cases ha : db.approvals.lookup id with
  | none =>
      have hmem : id ∉ db.approvals := AList.lookup_eq_none.mp ha
      rw [ha, Option.map_none, eq_comm, Option.map_eq_none_iff] at hid
      simp [hmem, hid]
  | some a =>
      have hmem : id ∈ db.approvals := AList.lookup_isSome.mp (by simp [ha])
      rw [ha, Option.map_some, eq_comm, Option.map_eq_some_iff] at hid
      obtain ⟨a₀, ha₀, heq⟩ := hid
      simp only [ha₀, hmem, Option.map_some, Option.some.injEq, forall_const]
      omega

theorem Db.ForeignKeys.step {db db' : Db} {label : DateTime × Statement} (hfk : db.ForeignKeys)
    (h : db.step label = some db') : db'.ForeignKeys := by
  obtain ⟨now, stmt⟩ := label
  cases stmt with
  | suspension op =>
      simp only [Db.step, Db.exec, Option.map_eq_some_iff, Prod.exists] at h
      obtain ⟨approvals, suspensions, h, rfl⟩ := h
      obtain ⟨hmem, hrows⟩ := foreignKey_execOn h hfk.suspension
      exact ⟨hrows, fun p hp => (hmem _).mpr (hfk.prolongation p hp)⟩
  | prolongation op =>
      simp only [Db.step, Db.exec, Option.map_eq_some_iff, Prod.exists] at h
      obtain ⟨approvals, prolongations, h, rfl⟩ := h
      obtain ⟨hmem, hrows⟩ := foreignKey_execOn h hfk.prolongation
      exact ⟨fun s hs => (hmem _).mpr (hfk.suspension s hs), hrows⟩

/-- One statement keeps the law exactly when it keeps the approval of its row. -/
theorem endAtLaw_step {approvals₀ : Table Approval} {db db' : Db} {label : DateTime × Statement}
    (hfk : db.ForeignKeys) (hlaw : EndAtLaw approvals₀ db) (h : db.step label = some db') :
    EndAtLaw approvals₀ db' ↔ label.2.KeepsApproval db := by
  obtain ⟨now, stmt⟩ := label
  cases stmt with
  | suspension op =>
      simp only [Db.step, Db.exec, Option.map_eq_some_iff, Prod.exists] at h
      obtain ⟨approvals, suspensions, h, rfl⟩ := h
      obtain ⟨fired, hexec, hend, hsum⟩ := endAt_execOn h
      rw [endAtLaw_iff hlaw hend fun id => by
        rw [Db.extension, Db.extension, hsum id, add_right_comm]]
      exact pushed_eq_delta_iff hfk.suspension hexec
  | prolongation op =>
      simp only [Db.step, Db.exec, Option.map_eq_some_iff, Prod.exists] at h
      obtain ⟨approvals, prolongations, h, rfl⟩ := h
      obtain ⟨fired, hexec, hend, hsum⟩ := endAt_execOn h
      rw [endAtLaw_iff hlaw hend fun id => by
        rw [Db.extension, Db.extension, hsum id, ← add_assoc]]
      exact pushed_eq_delta_iff hfk.prolongation hexec

end Itou.Approvals
