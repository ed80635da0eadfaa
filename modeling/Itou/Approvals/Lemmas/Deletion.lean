import Itou.Approvals.Lemmas.Hiring
import Mathlib.Algebra.Order.BigOperators.Group.List

/-!
# When an approval can be deleted

Each row of the cascade takes its days back before the approval goes, so that the approval without all its suspensions
and prolongations must still end after it starts.
-/

namespace Itou.Approvals

open Itou.Lib

universe u

variable {ρ : Type u} {db db' : Db} {now : DateTime} {id : Nat} {a : Approval} {statement : Statement}

theorem sum_daysFor_nonneg {period : ρ → Period} {t : Table ρ}
    (h : ∀ r ∈ t.rows, (period r).startAt ≤ (period r).endAt) : 0 ≤ t.sum fun r => (period r).daysFor id := by
  refine List.sum_nonneg fun x hx => ?_
  obtain ⟨r, hr, rfl⟩ := List.mem_map.mp hx
  have hrange := h r hr
  rw [Period.daysFor, Period.duration]
  split <;> omega

theorem Db.Ordered.extension_nonneg (h : db.Ordered) (id : Nat) : 0 ≤ db.extension id :=
  Int.add_nonneg (sum_daysFor_nonneg h.suspensions) (sum_daysFor_nonneg h.prolongations)

/-! ## One statement -/

theorem exec_deleted_suspension {k : Nat} {s : Suspension} (h : db.suspensions.lookup k = some s) :
    db.exec now (.suspension (.delete k)) = (pushEndAt now db.approvals s.approvalId (-s.duration)).map fun approvals =>
      { db with approvals, suspensions := db.suspensions.erase k } := by
  simp only [Db.exec, execOn, RowOp.exec, h, Option.map_some, RowOp.new, Option.all_none, if_true, Option.map_map]
  rfl

theorem exec_deleted_prolongation {k : Nat} {p : Prolongation} (h : db.prolongations.lookup k = some p) :
    db.exec now (.prolongation (.delete k)) =
      (pushEndAt now db.approvals p.approvalId (-p.duration)).map fun approvals =>
        { db with approvals, prolongations := db.prolongations.erase k } := by
  simp only [Db.exec, execOn, RowOp.exec, h, Option.map_some, RowOp.new, Option.all_none, if_true, Option.map_map]
  rfl

theorem pushEndAt_eq {t : Table Approval} {days : Int} (h : t.lookup id = some a) :
    pushEndAt now t id days =
      if a.startAt < a.endAt + days then some (t.insert id { a with endAt := a.endAt + days, updatedAt := now })
      else none := by
  simp only [pushEndAt, h]

theorem lookup_erase_of_ne {t : Table ρ} {k j : Nat} {r r' : ρ} (hr : t.lookup k = some r) (hr' : t.lookup j = some r')
    (hne : r ≠ r') : (t.erase k).lookup j = some r' := by
  have hj : j ≠ k := by
    rintro rfl
    exact hne (Option.some.inj (hr.symm.trans hr'))
  rw [AList.lookup_erase_ne hj, hr']

/-- What the approval `a` and the rows of the others become when rows of the approval are deleted. -/
structure Loses (id : Nat) (db : Db) (a : Approval) (db' : Db) (a' : Approval) : Prop where
  row : db'.approvals.lookup id = some a'
  startAt : a'.startAt = a.startAt
  endAt : a'.endAt - db'.extension id = a.endAt - db.extension id
  ordered : db'.Ordered
  suspensions : ∀ k s, db.suspensions.lookup k = some s → s.approvalId ≠ id → db'.suspensions.lookup k = some s
  prolongations : ∀ k p, db.prolongations.lookup k = some p → p.approvalId ≠ id → db'.prolongations.lookup k = some p

theorem Loses.trans {db₁ db₂ db₃ : Db} {a₁ a₂ a₃ : Approval} (h : Loses id db₁ a₁ db₂ a₂) (h' : Loses id db₂ a₂ db₃ a₃) :
    Loses id db₁ a₁ db₃ a₃ where
  row := h'.row
  startAt := h'.startAt.trans h.startAt
  endAt := h'.endAt.trans h.endAt
  ordered := h'.ordered
  suspensions k s hs hne := h'.suspensions k s (h.suspensions k s hs hne) hne
  prolongations k p hp hne := h'.prolongations k p (h.prolongations k p hp hne) hne

theorem Period.daysFor_eq {p : Period} (h : p.approvalId = id) : p.daysFor id = p.duration := if_pos h

/-- A statement of the cascade is refused when the approval would no longer end after it starts. -/
theorem exec_of_deletes_row (now : DateTime) (hdeletes : Deletes id db statement) (ha : db.approvals.lookup id = some a)
    (hordered : db.Ordered) :
    ∃ a' db', Loses id db a db' a' ∧ (∀ other, Deletes id db other → other ≠ statement → Deletes id db' other) ∧
      db.exec now statement = if a.startAt < a'.endAt then some db' else none := by
  cases hdeletes with
  | @suspension k s hrow hid =>
      refine ⟨{ a with endAt := a.endAt + -s.duration, updatedAt := now },
        { db with
          approvals := db.approvals.insert id { a with endAt := a.endAt + -s.duration, updatedAt := now }
          suspensions := db.suspensions.erase k },
        ⟨AList.lookup_insert _, rfl, ?_, ⟨?_, hordered.prolongations⟩, ?_, fun _ _ h _ => h⟩, ?_, ?_⟩
      · have hsum := Table.sum_of_lookup (fun s : Suspension => s.daysFor id) hrow
        rw [Period.daysFor_eq hid] at hsum
        simp only [Db.extension, hsum]
        omega
      · exact fun s' hs' => hordered.suspensions s' (Table.mem_of_mem_rows_erase hs')
      · exact fun k' s' hs' hne => lookup_erase_of_ne hrow hs' fun heq => hne (heq ▸ hid)
      · intro other hother hne
        cases hother with
        | @suspension k' s' hrow' hid' =>
            have hk : k' ≠ k := fun heq => hne (heq ▸ rfl)
            exact .suspension ((AList.lookup_erase_ne hk).trans hrow') hid'
        | prolongation hrow' hid' => exact .prolongation hrow' hid'
      · rw [exec_deleted_suspension hrow, hid, pushEndAt_eq ha]
        split
        · rfl
        · rfl
  | @prolongation k p hrow hid =>
      refine ⟨{ a with endAt := a.endAt + -p.duration, updatedAt := now },
        { db with
          approvals := db.approvals.insert id { a with endAt := a.endAt + -p.duration, updatedAt := now }
          prolongations := db.prolongations.erase k },
        ⟨AList.lookup_insert _, rfl, ?_, ⟨hordered.suspensions, ?_⟩, fun _ _ h _ => h, ?_⟩, ?_, ?_⟩
      · have hsum := Table.sum_of_lookup (fun p : Prolongation => p.daysFor id) hrow
        rw [Period.daysFor_eq hid] at hsum
        simp only [Db.extension, hsum]
        omega
      · exact fun p' hp' => hordered.prolongations p' (Table.mem_of_mem_rows_erase hp')
      · exact fun k' p' hp' hne => lookup_erase_of_ne hrow hp' fun heq => hne (heq ▸ hid)
      · intro other hother hne
        cases hother with
        | suspension hrow' hid' => exact .suspension hrow' hid'
        | @prolongation k' p' hrow' hid' =>
            have hk : k' ≠ k := fun heq => hne (heq ▸ rfl)
            exact .prolongation ((AList.lookup_erase_ne hk).trans hrow') hid'
      · rw [exec_deleted_prolongation hrow, hid, pushEndAt_eq ha]
        split
        · rfl
        · rfl

/-! ## The cascade -/

/-- The cascade is accepted when the approval without the days of the rows ends after it starts. -/
theorem exists_run_of_deletes {statements : List Statement} (hdeletes : ∀ s ∈ statements, Deletes id db s)
    (hnodup : statements.Nodup) (ha : db.approvals.lookup id = some a) (hordered : db.Ordered)
    (hend : a.startAt < a.endAt - db.extension id) :
    ∃ db', run (fun db statement => db.exec now statement) db statements = some db' := by
  induction statements generalizing db a with
  | nil => exact ⟨db, rfl⟩
  | cons statement statements ih =>
      obtain ⟨a', db', hloses, hothers, hexec⟩ :=
        exec_of_deletes_row now (hdeletes statement List.mem_cons_self) ha hordered
      have hnonneg := hloses.ordered.extension_nonneg id
      have hlaw := hloses.endAt
      rw [if_pos (by omega)] at hexec
      obtain ⟨hnotMem, hnodup⟩ := List.nodup_cons.mp hnodup
      have htail : ∀ s ∈ statements, Deletes id db' s := fun s hs =>
        hothers s (hdeletes s (List.mem_cons_of_mem _ hs)) fun heq => hnotMem (heq ▸ hs)
      obtain ⟨db'', hrun⟩ := ih htail hnodup hloses.row hloses.ordered (by rw [hloses.startAt, hlaw]; exact hend)
      exact ⟨db'', by rw [run, hexec]; exact hrun⟩

/-- What an accepted cascade leaves. The approval still ends after it starts. -/
theorem loses_of_run {statements : List Statement} (hdeletes : ∀ s ∈ statements, Deletes id db s)
    (hnodup : statements.Nodup) (ha : db.approvals.lookup id = some a) (hordered : db.Ordered)
    (hend : a.startAt < a.endAt)
    (h : run (fun db statement => db.exec now statement) db statements = some db') :
    ∃ a', Loses id db a db' a' ∧ a'.startAt < a'.endAt := by
  induction statements generalizing db a with
  | nil =>
      cases h
      exact ⟨a, ⟨ha, rfl, rfl, hordered, fun _ _ h _ => h, fun _ _ h _ => h⟩, hend⟩
  | cons statement statements ih =>
      obtain ⟨a', db₁, hloses, hothers, hexec⟩ :=
        exec_of_deletes_row now (hdeletes statement List.mem_cons_self) ha hordered
      rw [run, hexec] at h
      split at h
      · rename_i hend'
        obtain ⟨hnotMem, hnodup⟩ := List.nodup_cons.mp hnodup
        have htail : ∀ s ∈ statements, Deletes id db₁ s := fun s hs =>
          hothers s (hdeletes s (List.mem_cons_of_mem _ hs)) fun heq => hnotMem (heq ▸ hs)
        obtain ⟨a'', hloses', hend''⟩ :=
          ih htail hnodup hloses.row hloses.ordered (by rw [hloses.startAt]; exact hend') h
        exact ⟨a'', hloses.trans hloses', hend''⟩
      · cases h

/-- Statements on different keys are different. -/
theorem nodup_map_keys {t : Table ρ} {f : Nat → Statement} (hf : ∀ k k', f k = f k' → k = k')
    (p : (Sigma fun _ : Nat => ρ) → Bool) : ((t.entries.filter p).map fun e => f e.1).Nodup := by
  have hnodup : (t.entries.filter p).keys.Nodup := t.nodupKeys.sublist List.filter_sublist
  have hmap := List.Nodup.map (fun k k' h => hf k k' h) hnodup
  rwa [List.keys, List.map_map] at hmap

theorem nodup_cascade : (db.cascade id).Nodup := by
  have hsuspensions : ∀ k k', Statement.suspension (.delete k) = Statement.suspension (.delete k') → k = k' := by
    rintro k k' h
    cases h
    rfl
  have hprolongations : ∀ k k', Statement.prolongation (.delete k) = Statement.prolongation (.delete k') → k = k' := by
    rintro k k' h
    cases h
    rfl
  refine List.Nodup.append (nodup_map_keys hsuspensions _) (nodup_map_keys hprolongations _) ?_
  intro statement hsuspension hprolongation
  obtain ⟨e, -, rfl⟩ := List.mem_map.mp hsuspension
  obtain ⟨e', -, h⟩ := List.mem_map.mp hprolongation
  cases h

theorem sum_daysFor_of_ne {period : ρ → Period} {t : Table ρ} (h : ∀ r ∈ t.rows, (period r).approvalId ≠ id) :
    (t.sum fun r => (period r).daysFor id) = 0 := by
  refine List.sum_eq_zero fun x hx => ?_
  obtain ⟨r, hr, rfl⟩ := List.mem_map.mp hx
  exact if_neg (h r hr)

/-- After the cascade, no row has days for the approval. -/
theorem extension_of_cascade
    (h : run (fun db statement => db.exec now statement) db (db.cascade id) = some db') : db'.extension id = 0 := by
  obtain ⟨hsuspensions, hprolongations⟩ := approvalId_ne_of_cascade h
  rw [Db.extension, sum_daysFor_of_ne hsuspensions, sum_daysFor_of_ne hprolongations, Int.add_zero]

/-- What an accepted cascade leaves of the tables. -/
theorem loses_of_cascade (ha : db.approvals.lookup id = some a) (hordered : db.Ordered) (hend : a.startAt < a.endAt)
    (h : run (fun db statement => db.exec now statement) db (db.cascade id) = some db') :
    (∀ j, j ≠ id → db'.approvals.lookup j = db.approvals.lookup j) ∧
      (∀ k s, db'.suspensions.lookup k = some s ↔ db.suspensions.lookup k = some s ∧ s.approvalId ≠ id) ∧
      ∀ k p, db'.prolongations.lookup k = some p ↔ db.prolongations.lookup k = some p ∧ p.approvalId ≠ id := by
  have hdeletes : ∀ s ∈ db.cascade id, Deletes id db s := fun s hs => deletes_of_mem_cascade hs
  obtain ⟨hshrinks, -⟩ := run_of_deletes hdeletes (.refl id db) h
  obtain ⟨a', hloses, -⟩ := loses_of_run hdeletes nodup_cascade ha hordered hend h
  obtain ⟨hsuspensions, hprolongations⟩ := approvalId_ne_of_cascade h
  refine ⟨hshrinks.approvals, fun k s => ⟨fun hs => ?_, fun hs => hloses.suspensions k s hs.1 hs.2⟩,
    fun k p => ⟨fun hp => ?_, fun hp => hloses.prolongations k p hp.1 hp.2⟩⟩
  · exact ⟨hshrinks.suspensions k s hs, hsuspensions s (Table.mem_rows.mpr ⟨k, hs⟩)⟩
  · exact ⟨hshrinks.prolongations k p hp, hprolongations p (Table.mem_rows.mpr ⟨k, hp⟩)⟩

/-- When the cascade of an approval is accepted. -/
theorem cascade_isSome_iff (ha : db.approvals.lookup id = some a) (hordered : db.Ordered) (hend : a.startAt < a.endAt) :
    (∃ db', run (fun db statement => db.exec now statement) db (db.cascade id) = some db') ↔
      a.startAt < a.endAt - db.extension id := by
  have hdeletes : ∀ s ∈ db.cascade id, Deletes id db s := fun s hs => deletes_of_mem_cascade hs
  refine ⟨?_, exists_run_of_deletes hdeletes nodup_cascade ha hordered⟩
  rintro ⟨db', hrun⟩
  obtain ⟨a', hloses, hend'⟩ := loses_of_run hdeletes nodup_cascade ha hordered hend hrun
  have hzero := extension_of_cascade hrun
  have hlaw := hloses.endAt
  have hstart := hloses.startAt
  omega

end Itou.Approvals
