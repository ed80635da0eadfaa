import Itou.Approvals.Lemmas.EndAt
import Itou.Approvals.Hiring

/-!
# What a hiring does to the dates of its approval

Ending a suspension moves the end date of its approval; the deletion of an approval leaves the others.
-/

namespace Itou.Approvals

open Itou.Lib

universe u

variable {ρ : Type u}

/-! ## Queries -/

theorem lookup_of_mem_approvalsOf {db : Db} {user : Nat} {e : Nat × Approval}
    (h : e ∈ db.approvalsOf user) : db.approvals.lookup e.1 = some e.2 := by
  simp only [Db.approvalsOf, mem_orderByDesc, List.mem_filter, List.mem_map] at h
  obtain ⟨⟨entry, hmem, rfl⟩, _⟩ := h
  exact AList.mem_lookup_iff.mpr hmem

/-- The latest approval is a row of the table. -/
theorem lookup_of_latestApproval {db : Db} {today : Int} {waitingPeriodEnd : Int → Int} {jobSeeker : User}
    {e : Nat × Approval} (h : db.latestApproval today waitingPeriodEnd jobSeeker = some e) :
    db.approvals.lookup e.1 = some e.2 := by
  unfold Db.latestApproval at h
  split at h
  · cases h
  · split at h
    · rename_i hvalid
      cases h
      exact lookup_of_mem_approvalsOf (List.mem_of_mem_filter (hvalid ▸ List.mem_cons_self))
    · split at h
      · cases h
      · rename_i hsorted
        simp only [Option.ite_none_left_eq_some, Option.some.injEq] at h
        obtain ⟨_, rfl⟩ := h
        exact lookup_of_mem_approvalsOf ((List.mem_insertionSort _).mp (hsorted ▸ List.mem_cons_self))

/-- The suspension that `unsuspend` ends is a row of the table, of this approval. -/
theorem lookup_of_suspensionToEnd {db : Db} {today : Int} {id : Nat} {e : Nat × Suspension}
    (h : db.suspensionToEnd today id = some e) :
    db.suspensions.lookup e.1 = some e.2 ∧ e.2.approvalId = id := by
  simp only [Db.suspensionToEnd, Option.filter_eq_some_iff, Db.lastInProgressSuspension] at h
  have hmem := List.mem_of_getLast? h.1
  simp only [mem_orderBy, List.mem_filter, List.mem_map, Bool.and_eq_true,
    decide_eq_true_eq] at hmem
  obtain ⟨⟨entry, hentry, rfl⟩, ⟨hid, _⟩, _⟩ := hmem
  exact ⟨AList.mem_lookup_iff.mpr hentry, hid⟩

/-! ## The trigger on one approval -/

theorem pushEndAt_row {now : DateTime} {t t' : Table Approval} {id : Nat} {days : Int} {a : Approval}
    (h : pushEndAt now t id days = some t') (ha : t.lookup id = some a) :
    t'.lookup id = some { a with endAt := a.endAt + days, updatedAt := now } := by
  simp only [pushEndAt, ha, Option.ite_none_right_eq_some, Option.some.injEq] at h
  rw [← h.2, AList.lookup_insert]

theorem exec_suspension {db db' : Db} {now : DateTime} {op : RowOp Suspension}
    (h : db.exec now (.suspension op) = some db') :
    ∃ rows fired, op.exec db.suspensions = some (rows, fired) ∧
      Suspension.updateApprovalEndAt now db.approvals fired = some db'.approvals := by
  simp only [Db.exec, Option.map_eq_some_iff, Prod.exists] at h
  obtain ⟨approvals, suspensions, h, rfl⟩ := h
  obtain ⟨fired, hexec, htrigger, _⟩ := execOn_eq_some h
  exact ⟨suspensions, fired, hexec, htrigger⟩

theorem pushEndAt_lookup_ne {now : DateTime} {t t' : Table Approval} {id j : Nat} {days : Int}
    (h : pushEndAt now t id days = some t') (hj : j ≠ id) : t'.lookup j = t.lookup j := by
  unfold pushEndAt at h
  split at h
  · cases h
    rfl
  · split at h
    · cases h
      exact AList.lookup_insert_ne hj
    · cases h

/-- What an accepted `unsuspend` has done to the approval: its end date has lost the days of the suspension that
are not used. -/
theorem unsuspend_row {db db' : Db} {now : DateTime} {id : Nat} {hiringStartAt : Int} {a : Approval}
    (h : db.unsuspend now id hiringStartAt = some db') (ha : db.approvals.lookup id = some a) :
    ∃ a', db'.approvals.lookup id = some a' ∧ a'.startAt = a.startAt ∧
      a'.endAt = match db.suspensionToEnd now.date id with
        | none => a.endAt
        | some (_, s) =>
            if s.startAt = hiringStartAt then a.endAt - (s.endAt - s.startAt)
            else a.endAt - (s.endAt - (hiringStartAt - 1)) := by
  unfold Db.unsuspend at h
  cases hend : db.suspensionToEnd now.date id with
  | none =>
      simp only [hend, Option.some.injEq] at h
      subst h
      exact ⟨a, ha, rfl, rfl⟩
  | some e =>
      obtain ⟨k, s⟩ := e
      obtain ⟨hrow, hid⟩ := lookup_of_suspensionToEnd hend
      simp only [hend] at h
      split at h
      · rename_i hstart
        obtain ⟨rows, fired, hexec, htrigger⟩ := exec_suspension h
        simp only [RowOp.exec, hrow, Option.map_some, Option.some.injEq, Prod.mk.injEq] at hexec
        obtain ⟨_, rfl⟩ := hexec
        change pushEndAt now db.approvals s.approvalId (-s.duration) = some db'.approvals at htrigger
        rw [hid] at htrigger
        refine ⟨_, pushEndAt_row htrigger ha, rfl, ?_⟩
        simp only [if_pos hstart, Period.duration]
        omega
      · rename_i hstart
        obtain ⟨rows, fired, hexec, htrigger⟩ := exec_suspension h
        simp only [RowOp.exec, hrow, Option.map_some, Option.some.injEq, Prod.mk.injEq] at hexec
        obtain ⟨_, rfl⟩ := hexec
        change pushEndAt now db.approvals s.approvalId
          (-s.duration + (hiringStartAt - 1 - s.startAt)) = some db'.approvals at htrigger
        rw [hid] at htrigger
        refine ⟨_, pushEndAt_row htrigger ha, rfl, ?_⟩
        simp only [if_neg hstart, Period.duration]
        omega

/-- It leaves the other approvals. -/
theorem unsuspend_lookup_ne {db db' : Db} {now : DateTime} {id j : Nat} {hiringStartAt : Int}
    (h : db.unsuspend now id hiringStartAt = some db') (hj : j ≠ id) :
    db'.approvals.lookup j = db.approvals.lookup j := by
  unfold Db.unsuspend at h
  cases hend : db.suspensionToEnd now.date id with
  | none =>
      simp only [hend, Option.some.injEq] at h
      rw [h]
  | some e =>
      obtain ⟨k, s⟩ := e
      obtain ⟨hrow, hid⟩ := lookup_of_suspensionToEnd hend
      simp only [hend] at h
      split at h
      · obtain ⟨rows, fired, hexec, htrigger⟩ := exec_suspension h
        simp only [RowOp.exec, hrow, Option.map_some, Option.some.injEq, Prod.mk.injEq] at hexec
        obtain ⟨_, rfl⟩ := hexec
        exact pushEndAt_lookup_ne htrigger (by rw [hid]; exact hj)
      · obtain ⟨rows, fired, hexec, htrigger⟩ := exec_suspension h
        simp only [RowOp.exec, hrow, Option.map_some, Option.some.injEq, Prod.mk.injEq] at hexec
        obtain ⟨_, rfl⟩ := hexec
        exact pushEndAt_lookup_ne htrigger (by
          change j ≠ s.approvalId
          rw [hid]
          exact hj)

theorem Db.ForeignKeys.unsuspend {db db' : Db} {now : DateTime} {id : Nat} {hiringStartAt : Int}
    (hfk : db.ForeignKeys) (h : db.unsuspend now id hiringStartAt = some db') : db'.ForeignKeys := by
  have hexec : ∀ statement, db.exec now statement = some db' → db'.ForeignKeys := fun statement h =>
    Db.ForeignKeys.step hfk (show db.step (now, statement) = some db' from h)
  unfold Db.unsuspend at h
  split at h
  · cases h
    exact hfk
  · split at h
    · exact hexec _ h
    · exact hexec _ h

/-- The foreign keys go on holding when approvals are added. -/
theorem Db.ForeignKeys.mono {db : Db} {approvals : Table Approval} (hfk : db.ForeignKeys)
    (h : ∀ id ∈ db.approvals, id ∈ approvals) : Db.ForeignKeys { db with approvals } :=
  ⟨fun s hs => h _ (hfk.suspension s hs), fun p hp => h _ (hfk.prolongation p hp)⟩

/-! ## The deletion of an approval -/

/-- `db'` has lost rows of the approval `id` only. -/
structure Shrinks (id : Nat) (db db' : Db) : Prop where
  approvals : ∀ j, j ≠ id → db'.approvals.lookup j = db.approvals.lookup j
  suspensions : ∀ k, ∀ s ∈ db'.suspensions.lookup k, s ∈ db.suspensions.lookup k
  prolongations : ∀ k, ∀ p ∈ db'.prolongations.lookup k, p ∈ db.prolongations.lookup k

theorem Shrinks.refl (id : Nat) (db : Db) : Shrinks id db db :=
  ⟨fun _ _ => rfl, fun _ _ h => h, fun _ _ h => h⟩

theorem Shrinks.trans {id : Nat} {db₁ db₂ db₃ : Db} (h₁ : Shrinks id db₁ db₂) (h₂ : Shrinks id db₂ db₃) :
    Shrinks id db₁ db₃ :=
  ⟨fun j hj => (h₂.approvals j hj).trans (h₁.approvals j hj),
    fun k s hs => h₁.suspensions k s (h₂.suspensions k s hs),
    fun k p hp => h₁.prolongations k p (h₂.prolongations k p hp)⟩

theorem mem_of_lookup_erase {t : Table ρ} {k j : Nat} {r : ρ} (h : r ∈ (t.erase k).lookup j) :
    r ∈ t.lookup j := by
  by_cases hj : j = k
  · subst hj
    rw [AList.lookup_erase] at h
    cases h
  · rwa [AList.lookup_erase_ne hj] at h

/-- A statement deletes a row of the approval `id`, as long as the row is that of `db`. -/
inductive Deletes (id : Nat) (db : Db) : Statement → Prop
  | suspension {k : Nat} {s : Suspension} (hrow : db.suspensions.lookup k = some s)
      (hid : s.approvalId = id) : Deletes id db (.suspension (.delete k))
  | prolongation {k : Nat} {p : Prolongation} (hrow : db.prolongations.lookup k = some p)
      (hid : p.approvalId = id) : Deletes id db (.prolongation (.delete k))

theorem deletes_of_mem_cascade {db : Db} {id : Nat} {statement : Statement} (h : statement ∈ db.cascade id) :
    Deletes id db statement := by
  simp only [Db.cascade, List.mem_append, List.mem_map, List.mem_filter, decide_eq_true_eq] at h
  rcases h with ⟨e, ⟨he, hid⟩, rfl⟩ | ⟨e, ⟨he, hid⟩, rfl⟩
  · exact .suspension (AList.mem_lookup_iff.mpr he) hid
  · exact .prolongation (AList.mem_lookup_iff.mpr he) hid

/-- The row of a statement is not there any more. -/
def Gone (db : Db) : Statement → Prop
  | .suspension op => db.suspensions.lookup op.key = none
  | .prolongation op => db.prolongations.lookup op.key = none

theorem Gone.shrinks {id : Nat} {db db' : Db} {statement : Statement} (h : Gone db statement)
    (hshrinks : Shrinks id db db') : Gone db' statement := by
  cases statement with
  | suspension op =>
      refine Option.eq_none_iff_forall_ne_some.mpr fun s hs => ?_
      have hmem := hshrinks.suspensions _ s hs
      rw [show db.suspensions.lookup op.key = none from h] at hmem
      cases hmem
  | prolongation op =>
      refine Option.eq_none_iff_forall_ne_some.mpr fun p hp => ?_
      have hmem := hshrinks.prolongations _ p hp
      rw [show db.prolongations.lookup op.key = none from h] at hmem
      cases hmem

/-- What one deletion of the cascade does, after others. -/
theorem exec_of_deletes {id : Nat} {db₀ db db' : Db} {now : DateTime} {statement : Statement}
    (hdeletes : Deletes id db₀ statement) (hshrinks : Shrinks id db₀ db)
    (h : db.exec now statement = some db') : Shrinks id db db' ∧ Gone db' statement := by
  cases hdeletes with
  | @suspension k s hrow hid =>
      simp only [Db.exec, Option.map_eq_some_iff, Prod.exists] at h
      obtain ⟨approvals, suspensions, h, rfl⟩ := h
      obtain ⟨fired, hexec, htrigger, _⟩ := execOn_eq_some h
      simp only [RowOp.exec, Option.map_eq_some_iff, Prod.mk.injEq] at hexec
      obtain ⟨old, hold, rfl, rfl⟩ := hexec
      have heq : s = old := Option.some.inj (hrow.symm.trans (hshrinks.suspensions k old hold))
      have hpush : ∀ j, j ≠ id → approvals.lookup j = db.approvals.lookup j := fun j hj =>
        pushEndAt_lookup_ne htrigger (by rw [← heq, hid]; exact hj)
      exact ⟨⟨hpush, fun _ _ hs => mem_of_lookup_erase hs, fun _ _ hp => hp⟩, AList.lookup_erase _ _⟩
  | @prolongation k p hrow hid =>
      simp only [Db.exec, Option.map_eq_some_iff, Prod.exists] at h
      obtain ⟨approvals, prolongations, h, rfl⟩ := h
      obtain ⟨fired, hexec, htrigger, _⟩ := execOn_eq_some h
      simp only [RowOp.exec, Option.map_eq_some_iff, Prod.mk.injEq] at hexec
      obtain ⟨old, hold, rfl, rfl⟩ := hexec
      have heq : p = old := Option.some.inj (hrow.symm.trans (hshrinks.prolongations k old hold))
      have hpush : ∀ j, j ≠ id → approvals.lookup j = db.approvals.lookup j := fun j hj =>
        pushEndAt_lookup_ne htrigger (by rw [← heq, hid]; exact hj)
      exact ⟨⟨hpush, fun _ _ hs => hs, fun _ _ hp => mem_of_lookup_erase hp⟩, AList.lookup_erase _ _⟩

/-- The whole cascade. -/
theorem run_of_deletes {id : Nat} {db₀ db db' : Db} {now : DateTime} {statements : List Statement}
    (hdeletes : ∀ statement ∈ statements, Deletes id db₀ statement) (hshrinks : Shrinks id db₀ db)
    (h : run (fun db statement => db.exec now statement) db statements = some db') :
    Shrinks id db db' ∧ ∀ statement ∈ statements, Gone db' statement := by
  induction statements generalizing db with
  | nil =>
      cases h
      exact ⟨.refl _ _, fun _ hmem => absurd hmem List.not_mem_nil⟩
  | cons statement statements ih =>
      obtain ⟨db₁, hexec, hrun⟩ := Option.bind_eq_some_iff.mp h
      obtain ⟨hfirst, hgone⟩ := exec_of_deletes (hdeletes _ List.mem_cons_self) hshrinks hexec
      obtain ⟨hrest, hall⟩ :=
        ih (fun s hs => hdeletes s (List.mem_cons_of_mem _ hs)) (hshrinks.trans hfirst) hrun
      refine ⟨hfirst.trans hrest, fun s hs => ?_⟩
      rcases List.mem_cons.mp hs with rfl | hs
      · exact hgone.shrinks hrest
      · exact hall s hs

/-- The cascade leaves no row that refers to the approval. -/
theorem approvalId_ne_of_cascade {db db' : Db} {now : DateTime} {id : Nat}
    (h : run (fun db statement => db.exec now statement) db (db.cascade id) = some db') :
    (∀ s ∈ db'.suspensions.rows, s.approvalId ≠ id) ∧ ∀ p ∈ db'.prolongations.rows, p.approvalId ≠ id := by
  obtain ⟨hshrinks, hgone⟩ := run_of_deletes (fun _ hs => deletes_of_mem_cascade hs) (.refl id db) h
  refine ⟨fun s hs hid => ?_, fun p hp hid => ?_⟩
  · obtain ⟨k, hk⟩ := Table.mem_rows.mp hs
    have hrow := hshrinks.suspensions k s hk
    have hmem : Statement.suspension (.delete k) ∈ db.cascade id :=
      List.mem_append_left _ (List.mem_map.mpr
        ⟨⟨k, s⟩, List.mem_filter.mpr ⟨AList.mem_lookup_iff.mp hrow, by simpa using hid⟩, rfl⟩)
    exact Option.some_ne_none s (hk.symm.trans (hgone _ hmem))
  · obtain ⟨k, hk⟩ := Table.mem_rows.mp hp
    have hrow := hshrinks.prolongations k p hk
    have hmem : Statement.prolongation (.delete k) ∈ db.cascade id :=
      List.mem_append_right _ (List.mem_map.mpr
        ⟨⟨k, p⟩, List.mem_filter.mpr ⟨AList.mem_lookup_iff.mp hrow, by simpa using hid⟩, rfl⟩)
    exact Option.some_ne_none p (hk.symm.trans (hgone _ hmem))

/-- The deletion of an approval leaves the other approvals, and no row that refers to it. -/
theorem deleteApproval_eq_some {db db' : Db} {now : DateTime} {id : Nat} (hfk : db.ForeignKeys)
    (h : db.deleteApproval now id = some db') :
    (∀ j, j ≠ id → db'.approvals.lookup j = db.approvals.lookup j) ∧ db'.ForeignKeys := by
  obtain ⟨db₁, hrun, rfl⟩ := Option.map_eq_some_iff.mp h
  obtain ⟨hshrinks, -⟩ := run_of_deletes (fun _ hs => deletes_of_mem_cascade hs) (.refl id db) hrun
  obtain ⟨hsuspensions, hprolongations⟩ := approvalId_ne_of_cascade hrun
  have hother : ∀ j, j ≠ id → (db₁.approvals.erase id).lookup j = db.approvals.lookup j := fun j hj => by
    rw [AList.lookup_erase_ne hj, hshrinks.approvals j hj]
  have hkeep : ∀ j, j ≠ id → j ∈ db.approvals → j ∈ db₁.approvals.erase id := fun j hj hmem => by
    rw [← AList.lookup_isSome, hother j hj]
    exact AList.lookup_isSome.mpr hmem
  refine ⟨hother, ⟨fun s hs => ?_, fun p hp => ?_⟩⟩
  · obtain ⟨k, hk⟩ := Table.mem_rows.mp hs
    have hrow := hshrinks.suspensions k s hk
    exact hkeep _ (hsuspensions s hs) (hfk.suspension s (Table.mem_rows.mpr ⟨k, hrow⟩))
  · obtain ⟨k, hk⟩ := Table.mem_rows.mp hp
    have hrow := hshrinks.prolongations k p hk
    exact hkeep _ (hprolongations p hp) (hfk.prolongation p (Table.mem_rows.mpr ⟨k, hrow⟩))

end Itou.Approvals
