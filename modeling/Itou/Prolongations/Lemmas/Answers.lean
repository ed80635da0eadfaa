import Itou.Approvals.Lemmas.EndAt
import Itou.Prolongations.Models
import Itou.Prolongations.Views

/-!
# Answers to the requests

The rows after an `INSERT`, and when it is accepted.

What the status of a request says of the prolongations and of the deny informations, and how a view changes it.
-/

namespace Itou.Prolongations

open Itou.Lib Itou.Approvals

/-! ## What a statement leaves -/

theorem freshKey_not_mem {ρ : Type} (t : Table ρ) : freshKey t ∉ t := by
  intro h
  have hle : freshKey t ≤ t.keys.max?.getD 0 := List.le_max?_getD_of_mem h
  unfold freshKey at hle
  omega

theorem rows_insert_freshKey {ρ : Type} (t : Table ρ) (r : ρ) :
    Table.rows (t.insert (freshKey t) r) = r :: t.rows := by
  rw [Table.rows_insert, Table.erase_of_notMem (freshKey_not_mem t)]

theorem lookup_insert_freshKey {ρ : Type} {t : Table ρ} {r : ρ} {k : Nat} (h : k ∈ t) :
    (t.insert (freshKey t) r).lookup k = t.lookup k :=
  AList.lookup_insert_ne fun heq => freshKey_not_mem t (heq ▸ h)

variable {db db' : Db} {now : DateTime}

/-! ## Prolongations -/

/-- The database with one more prolongation. -/
theorem insertProlongation_eq_some {p : Prolongation} (h : db.insertProlongation now p = some db') :
    ∃ a, db.approvals.lookup p.approvalId = some a ∧ a.startAt < a.endAt + p.duration ∧
      Prolongation.constraints db.prolongations p = true ∧
      db' = { db with
        approvals := db.approvals.insert p.approvalId { a with endAt := a.endAt + p.duration, updatedAt := now }
        prolongations := db.prolongations.insert (freshKey db.prolongations) p } := by
  unfold Db.insertProlongation at h
  obtain ⟨⟨approvals, prolongations⟩, hexec, rfl⟩ := Option.map_eq_some_iff.mp h
  obtain ⟨fired, hop, htrigger, hnew⟩ := execOn_eq_some hexec
  simp only [RowOp.exec, freshKey_not_mem, if_false, Option.some.injEq, Prod.mk.injEq] at hop
  obtain ⟨rfl, rfl⟩ := hop
  obtain ⟨happroval, hconstraints⟩ := hnew p rfl
  rw [RowOp.key, Table.erase_of_notMem (freshKey_not_mem _)] at hconstraints
  obtain ⟨a, ha⟩ := Option.isSome_iff_exists.mp (AList.lookup_isSome.mpr happroval)
  simp only [updateApprovalEndAt, pushEndAt, ha, Option.ite_none_right_eq_some, Option.some.injEq] at htrigger
  obtain ⟨hlt, rfl⟩ := htrigger
  exact ⟨a, ha, hlt, hconstraints, rfl⟩

theorem insertProlongation_isSome {p : Prolongation} :
    (db.insertProlongation now p).isSome = true ↔ db.Accepts p := by
  constructor
  · intro h
    obtain ⟨db', hdb'⟩ := Option.isSome_iff_exists.mp h
    obtain ⟨a, ha, hlt, hconstraints, -⟩ := insertProlongation_eq_some hdb'
    exact ⟨hconstraints, a, ha, hlt⟩
  · rintro ⟨hconstraints, a, ha, hlt⟩
    have happroval : p.approvalId ∈ db.approvals := AList.lookup_isSome.mp (by rw [ha]; rfl)
    unfold Db.insertProlongation execOn
    simp only [RowOp.exec, freshKey_not_mem, if_false, RowOp.new, RowOp.key, Option.all_some,
      Table.erase_of_notMem (freshKey_not_mem _), happroval, hconstraints, decide_true, Bool.and_self, if_true,
      updateApprovalEndAt, pushEndAt, ha]
    rw [if_pos hlt]
    rfl

/-! ## Deny informations -/

theorem insertDenyInformation_eq_some {information : DenyInformation} :
    db.insertDenyInformation information = some db' ↔
      (information.request ∈ db.requests ∧ db.AcceptsDenyInformation information.request information) ∧
        db' = { db with
          denyInformations := db.denyInformations.insert (freshKey db.denyInformations) information } := by
  unfold Db.insertDenyInformation Db.AcceptsDenyInformation
  simp only [Option.ite_none_right_eq_some, Option.some.injEq, List.all_eq_true, decide_eq_true_eq]
  constructor
  · rintro ⟨h, rfl⟩
    exact ⟨h, rfl⟩
  · rintro ⟨h, rfl⟩
    exact ⟨h, rfl⟩

/-! ## Requests -/

theorem insertRequest_eq_some {r : ProlongationRequest} (h : db.insertRequest r = some db') :
    db' = { db with requests := db.requests.insert (freshKey db.requests) r } := by
  unfold Db.insertRequest at h
  simp only [Option.ite_none_right_eq_some, Option.some.injEq] at h
  exact h.2.symm

/-! ## The answer to a request -/

/-- A request that a view has read exists, and is granted if it was. What a form declares is not answered. -/
def Tab.IsCopy (db : Db) : Tab → Prop
  | .approval _ _ => True
  | .form _ (.prolongation p) => p.request = none
  | .form _ (.request r) => r.status = .pending
  | .request pk r => ∃ row, db.requests.lookup pk = some row ∧ (r.status = .granted → row.status = .granted)

/-- The invariant behind the answers. -/
structure State.Sound (s : State) : Prop where
  foreignKeys : s.db.ForeignKeys
  tabs : ∀ tab ∈ s.tabs, tab.IsCopy s.db

section Answers

variable {pk : Nat} {r row : ProlongationRequest}

theorem coherent_iff : db.Coherent ↔ ∀ pk r, db.requests.lookup pk = some r →
    (r.status = .granted ↔ db.prolongationCount pk = 1) ∧
      (r.status = .denied ↔ db.denyCount pk = 1 ∧ db.prolongationCount pk = 0) ∧
      (r.status = .pending ↔ db.prolongationCount pk = 0 ∧ db.denyCount pk = 0) := by
  constructor
  · intro h pk r hr
    exact h ⟨pk, r⟩ (AList.mem_lookup_iff.mp hr)
  · rintro h ⟨pk, r⟩ hr
    exact h pk r (AList.mem_lookup_iff.mpr hr)

theorem keepsAnswers_iff : db.KeepsAnswers db' ↔ ∀ pk r, db.requests.lookup pk = some r → r.status ≠ .pending →
    ∃ r', db'.requests.lookup pk = some r' ∧
      r'.status = r.status ∧ r'.processedBy = r.processedBy ∧ r'.processedAt = r.processedAt := by
  constructor
  · intro h pk r hr hanswered
    obtain ⟨⟨pk', r'⟩, hr', rfl, hsame⟩ := h ⟨pk, r⟩ (AList.mem_lookup_iff.mp hr) hanswered
    exact ⟨r', AList.mem_lookup_iff.mpr hr', hsame⟩
  · rintro h ⟨pk, r⟩ hr hanswered
    obtain ⟨r', hr', hsame⟩ := h pk r (AList.mem_lookup_iff.mpr hr) hanswered
    exact ⟨⟨pk, r'⟩, AList.mem_lookup_iff.mp hr', rfl, hsame⟩

theorem keepsAnswers_refl (db : Db) : db.KeepsAnswers db :=
  fun r hr _ => ⟨r, hr, rfl, rfl, rfl, rfl⟩

theorem prolongationCount_eq_zero :
    db.prolongationCount pk = 0 ↔ ∀ p ∈ db.prolongations.rows, p.request ≠ some pk := by
  simp [Db.prolongationCount, List.countP_eq_zero]

theorem denyCount_eq_zero : db.denyCount pk = 0 ↔ ∀ i ∈ db.denyInformations.rows, i.request ≠ pk := by
  simp [Db.denyCount, List.countP_eq_zero]

/-- A prolongation is accepted for a request that has none. -/
theorem prolongationCount_of_accepts {p : Prolongation} (hrequest : p.request = some pk) (h : db.Accepts p) :
    db.prolongationCount pk = 0 := by
  rw [prolongationCount_eq_zero]
  intro o ho heq
  have hconstraints := h.1
  simp only [Prolongation.constraints, Bool.and_eq_true, List.all_eq_true] at hconstraints
  have hunique := (hconstraints.2 o ho).1.2
  simp [hrequest, heq] at hunique

theorem denyCount_of_accepts {information : DenyInformation} (h : db.AcceptsDenyInformation pk information) :
    db.denyCount pk = 0 := denyCount_eq_zero.mpr h.2

/-! ## Answers -/

theorem grant_eq_some {user : Nat} (h : db.grant now pk r user = some db') :
    db.Accepts (Prolongation.fromProlongationRequest pk (r.answered .granted user now)) ∧
      db'.prolongations.rows =
        Prolongation.fromProlongationRequest pk (r.answered .granted user now) :: db.prolongations.rows ∧
      db'.denyInformations = db.denyInformations ∧
      db'.requests = db.requests.insert pk (r.answered .granted user now) := by
  unfold Db.grant at h
  obtain ⟨next, hnext, hdb'⟩ := Option.map_eq_some_iff.mp h
  have haccepts := insertProlongation_isSome.mp (Option.isSome_of_eq_some hnext)
  obtain ⟨a, -, -, -, rfl⟩ := insertProlongation_eq_some hnext
  subst hdb'
  exact ⟨haccepts, rows_insert_freshKey _ _, rfl, rfl⟩

theorem deny_eq_some {user : Nat} {information : DenyInformation} (h : db.deny now pk r user information = some db') :
    db.AcceptsDenyInformation pk information ∧
      db'.denyInformations.rows = { information with request := pk } :: db.denyInformations.rows ∧
      db'.prolongations = db.prolongations ∧
      db'.requests = db.requests.insert pk (r.answered .denied user now) := by
  unfold Db.deny at h
  obtain ⟨next, hnext, hdb'⟩ := Option.map_eq_some_iff.mp h
  obtain ⟨⟨-, haccepts⟩, rfl⟩ := insertDenyInformation_eq_some.mp hnext
  subst hdb'
  exact ⟨haccepts, rows_insert_freshKey _ _, rfl, rfl⟩

/-- The counts after a grant. -/
theorem counts_of_grant {user : Nat} (h : db.grant now pk r user = some db') (pk' : Nat) :
    db'.prolongationCount pk' = db.prolongationCount pk' + (if pk' = pk then 1 else 0) ∧
      db'.denyCount pk' = db.denyCount pk' := by
  obtain ⟨-, hprolongations, hinformations, -⟩ := grant_eq_some h
  unfold Db.prolongationCount Db.denyCount
  rw [hprolongations, hinformations, List.countP_cons]
  simp [Prolongation.fromProlongationRequest, eq_comm]

theorem counts_of_deny {user : Nat} {information : DenyInformation} (h : db.deny now pk r user information = some db')
    (pk' : Nat) :
    db'.prolongationCount pk' = db.prolongationCount pk' ∧
      db'.denyCount pk' = db.denyCount pk' + (if pk' = pk then 1 else 0) := by
  obtain ⟨-, hinformations, hprolongations, -⟩ := deny_eq_some h
  unfold Db.prolongationCount Db.denyCount
  rw [hprolongations, hinformations, List.countP_cons]
  simp [eq_comm]

/-- An answer to a pending request changes no answer. -/
theorem keepsAnswers_of_pending (hrow : db.requests.lookup pk = some row) (hpending : row.status = .pending)
    (hrequests : db'.requests = db.requests.insert pk r) : db.KeepsAnswers db' := by
  rw [keepsAnswers_iff]
  intro pk' r' hr' hanswered
  refine ⟨r', ?_, rfl, rfl, rfl⟩
  rw [hrequests, AList.lookup_insert_ne]
  · exact hr'
  · rintro rfl
    rw [hrow, Option.some.injEq] at hr'
    exact hanswered (hr' ▸ hpending)

/-- An answer to a pending request is one that the other tables hold. -/
theorem coherent_of_grant {user : Nat} (hcoherent : db.Coherent) (hrow : db.requests.lookup pk = some row)
    (hpending : row.status = .pending) (h : db.grant now pk r user = some db') :
    db'.Coherent ∧ db.KeepsAnswers db' := by
  obtain ⟨-, -, -, hrequests⟩ := grant_eq_some h
  have hcounts := counts_of_grant h
  rw [coherent_iff] at hcoherent
  rw [coherent_iff]
  obtain ⟨hzero, hdeny⟩ := (hcoherent pk row hrow).2.2.mp hpending
  refine ⟨fun pk' r' hr' => ?_, keepsAnswers_of_pending hrow hpending hrequests⟩
  rw [hrequests] at hr'
  obtain ⟨hprolongation, hinformation⟩ := hcounts pk'
  rw [hprolongation, hinformation]
  by_cases hpk : pk' = pk
  · subst hpk
    rw [AList.lookup_insert, Option.some.injEq] at hr'
    subst hr'
    simp [ProlongationRequest.answered, hzero]
  · rw [AList.lookup_insert_ne hpk] at hr'
    simpa [hpk] using hcoherent pk' r' hr'

theorem coherent_of_deny {user : Nat} {information : DenyInformation} (hcoherent : db.Coherent)
    (hrow : db.requests.lookup pk = some row) (hpending : row.status = .pending)
    (h : db.deny now pk r user information = some db') : db'.Coherent ∧ db.KeepsAnswers db' := by
  obtain ⟨-, -, -, hrequests⟩ := deny_eq_some h
  have hcounts := counts_of_deny h
  rw [coherent_iff] at hcoherent
  rw [coherent_iff]
  obtain ⟨hzero, hdeny⟩ := (hcoherent pk row hrow).2.2.mp hpending
  refine ⟨fun pk' r' hr' => ?_, keepsAnswers_of_pending hrow hpending hrequests⟩
  rw [hrequests] at hr'
  obtain ⟨hprolongation, hinformation⟩ := hcounts pk'
  rw [hprolongation, hinformation]
  by_cases hpk : pk' = pk
  · subst hpk
    rw [AList.lookup_insert, Option.some.injEq] at hr'
    subst hr'
    simp [ProlongationRequest.answered, hzero, hdeny]
  · rw [AList.lookup_insert_ne hpk] at hr'
    simpa [hpk] using hcoherent pk' r' hr'

/-- Another answer to a request that has one is a change of it. -/
theorem not_keepsAnswers {status : Status} {user : Nat} (hrow : db.requests.lookup pk = some row)
    (hanswered : row.status ≠ .pending) (hother : row.status ≠ status)
    (hrequests : db'.requests = db.requests.insert pk (r.answered status user now)) : ¬ db.KeepsAnswers db' := by
  rw [keepsAnswers_iff]
  intro h
  obtain ⟨r', hr', hstatus, -⟩ := h pk row hrow hanswered
  rw [hrequests, AList.lookup_insert, Option.some.injEq] at hr'
  subst hr'
  exact hother hstatus.symm

/-! ## Declarations -/

/-- A prolongation that is declared answers no request. -/
theorem coherent_of_insertProlongation {p : Prolongation} (hcoherent : db.Coherent) (hrequest : p.request = none)
    (h : db.insertProlongation now p = some db') : db'.Coherent ∧ db.KeepsAnswers db' := by
  obtain ⟨a, -, -, -, rfl⟩ := insertProlongation_eq_some h
  refine ⟨fun r hr => ?_, fun r hr _ => ⟨r, hr, rfl, rfl, rfl, rfl⟩⟩
  simpa [Db.prolongationCount, Db.denyCount, rows_insert_freshKey, List.countP_cons, hrequest] using hcoherent r hr

/-- Nothing refers to a new request. -/
theorem coherent_of_insertRequest (hcoherent : db.Coherent) (hkeys : db.ForeignKeys) (hpending : r.status = .pending)
    (h : db.insertRequest r = some db') : db'.Coherent ∧ db.KeepsAnswers db' := by
  obtain rfl := insertRequest_eq_some h
  rw [coherent_iff] at hcoherent ⊢
  rw [keepsAnswers_iff]
  constructor
  · intro pk' r' hr'
    change (r'.status = .granted ↔ db.prolongationCount pk' = 1) ∧
      (r'.status = .denied ↔ db.denyCount pk' = 1 ∧ db.prolongationCount pk' = 0) ∧
        (r'.status = .pending ↔ db.prolongationCount pk' = 0 ∧ db.denyCount pk' = 0)
    by_cases hpk : pk' = freshKey db.requests
    · subst hpk
      rw [AList.lookup_insert, Option.some.injEq] at hr'
      subst hr'
      have hprolongations : db.prolongationCount (freshKey db.requests) = 0 :=
        prolongationCount_eq_zero.mpr fun p hp heq => freshKey_not_mem _ (hkeys.prolongation p hp _ heq)
      have hinformations : db.denyCount (freshKey db.requests) = 0 :=
        denyCount_eq_zero.mpr fun i hi heq => freshKey_not_mem _ (heq ▸ hkeys.denyInformation i hi)
      simp [hpending, hprolongations, hinformations]
    · rw [AList.lookup_insert_ne hpk] at hr'
      exact hcoherent pk' r' hr'
  · intro pk' r' hr' _
    exact ⟨r', (lookup_insert_freshKey (AList.lookup_isSome.mp (Option.isSome_of_eq_some hr'))).trans hr', rfl, rfl, rfl⟩

end Answers

end Itou.Prolongations
