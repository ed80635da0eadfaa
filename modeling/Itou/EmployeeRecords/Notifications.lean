import Itou.EmployeeRecords.Models
import Itou.Lib.Queries
import Mathlib.Data.List.Nodup

/-!
# Update notifications

`EmployeeRecordUpdateNotification`, its workflow, and its table: a structure that carries the two constraints on
which the upsert of the trigger rests.
-/

namespace Itou.EmployeeRecords

open Itou.Lib

/-- `NotificationStatus`. -/
inductive NotificationStatus where
  | new
  | sent
  | processed
  | rejected
  deriving DecidableEq

/-- A row of `employee_record_employeerecordupdatenotification`. -/
structure Notification extends AspExchangeInformation where
  pk : Nat
  employeeRecord : Nat
  status : NotificationStatus
  createdAt : DateTime
  updatedAt : DateTime
  deriving DecidableEq

namespace Notification

variable (n : Notification) (now : DateTime)

def IsNewFor (employeeRecord : Nat) : Prop := n.status = .new ∧ n.employeeRecord = employeeRecord

instance (employeeRecord : Nat) : Decidable (n.IsNewFor employeeRecord) := inferInstanceAs (Decidable (_ ∧ _))

/-- A row that has left the status `NEW`. -/
abbrev Handled := { n : Notification // n.status ≠ .new }

/-! ## Workflow -/

/-- Take a transition of `EmployeeRecordUpdateNotificationWorkflow`: none goes back to `NEW`. -/
def perform (source target : NotificationStatus) (htarget : target ≠ .new) (info : AspExchangeInformation) :
    Except TransitionError Handled :=
  if n.status = source then
    .ok ⟨{ n with toAspExchangeInformation := info, status := target, updatedAt := now }, htarget⟩
  else .error .invalidTransition

def waitForAspResponse (file : DateTime) (lineNumber : Nat) (archive : String) :
    Except TransitionError Handled :=
  n.perform now .new .sent (by decide) (n.toAspExchangeInformation.setAspBatchInformation file lineNumber archive)

def reject (code label archive : String) : Except TransitionError Handled :=
  n.perform now .sent .rejected (by decide)
    (n.toAspExchangeInformation.setAspProcessingInformation code label archive)

def process (code label archive : String) : Except TransitionError Handled :=
  n.perform now .sent .processed (by decide)
    (n.toAspExchangeInformation.setAspProcessingInformation code label archive)

theorem perform_eq_ok {n : Notification} {now : DateTime} {source target : NotificationStatus}
    {htarget : target ≠ .new} {info : AspExchangeInformation} {n' : Handled} :
    n.perform now source target htarget info = .ok n' ↔ n.status = source ∧
      n'.1 = { n with toAspExchangeInformation := info, status := target, updatedAt := now } := by
  unfold perform
  split
  · simp_all [Subtype.ext_iff, eq_comm]
  · simp_all

end Notification

/-! ## Table -/

/-- The table of the notifications. -/
structure Notifications where
  rows : List Notification
  nextPk : Nat
  fresh : ∀ n ∈ rows, n.pk < nextPk
  pks : (rows.map Notification.pk).Nodup
  /-- `unique_new_employee_record`. -/
  uniqueNewEmployeeRecord :
    ((rows.filter fun n => n.status = .new).map Notification.employeeRecord).Nodup

namespace Notifications

variable (t : Notifications)

def empty : Notifications := ⟨[], 1, by simp, by simp, by simp⟩

def HasNew (employeeRecord : Nat) : Prop := ∃ n ∈ t.rows, n.IsNewFor employeeRecord

instance (employeeRecord : Nat) : Decidable (t.HasNew employeeRecord) :=
  inferInstanceAs (Decidable (∃ n ∈ t.rows, n.IsNewFor employeeRecord))

/-- Change rows. Keys stay, and a row that is `NEW` was `NEW` for the same employee record. -/
def rewrite (f : Notification → Notification) (hpk : ∀ n, (f n).pk = n.pk)
    (hnew : ∀ n, (f n).status = .new → n.status = .new ∧ (f n).employeeRecord = n.employeeRecord) :
    Notifications where
  rows := t.rows.map f
  nextPk := t.nextPk
  fresh := by
    simp only [List.forall_mem_map, hpk]
    exact t.fresh
  pks := by
    have hmap : t.rows.map (Notification.pk ∘ f) = t.rows.map Notification.pk :=
      List.map_congr_left fun n _ => hpk n
    rw [List.map_map, hmap]
    exact t.pks
  uniqueNewEmployeeRecord := t.uniqueNewEmployeeRecord.sublist (sublist_map_filter_map hnew t.rows)

/-- The row that an `INSERT` makes. -/
def newRow (employeeRecord : Nat) (now : DateTime) : Notification :=
  { AspExchangeInformation.empty with
    pk := t.nextPk, employeeRecord, status := .new, createdAt := now, updatedAt := now }

/-- Insert a `NEW` row, or set `updated_at` on the one that is there: `INSERT .. ON conflict DO UPDATE` in the
trigger, `update_or_create` elsewhere. -/
def upsert (employeeRecord : Nat) (now : DateTime) : Notifications :=
  if h : t.HasNew employeeRecord then
    t.rewrite (fun n => if n.IsNewFor employeeRecord then { n with updatedAt := now } else n)
      (fun n => by split <;> rfl) (fun n => by split <;> exact fun hn => ⟨hn, rfl⟩)
  else
    { rows := t.newRow employeeRecord now :: t.rows
      nextPk := t.nextPk + 1
      fresh := by
        simp only [List.forall_mem_cons]
        exact ⟨Nat.lt_succ_self _, fun n hn => Nat.lt_succ_of_lt (t.fresh n hn)⟩
      pks := by
        rw [List.map_cons, List.nodup_cons]
        refine ⟨fun hmem => ?_, t.pks⟩
        obtain ⟨n, hn, heq⟩ := List.mem_map.mp hmem
        exact absurd (t.fresh n hn) (heq ▸ Nat.lt_irrefl _)
      uniqueNewEmployeeRecord := by
        rw [List.filter_cons_of_pos (by simp [newRow]), List.map_cons, List.nodup_cons]
        refine ⟨fun hmem => h ?_, t.uniqueNewEmployeeRecord⟩
        obtain ⟨n, hn, heq⟩ := List.mem_map.mp hmem
        rw [List.mem_filter] at hn
        exact ⟨n, hn.1, by simpa using hn.2, heq⟩ }

/-- The file and the line are those of another row: `unique_.._asp_batch_file_and_line`. -/
def LineTaken (pk : Nat) (info : AspExchangeInformation) : Prop :=
  ∃ n ∈ t.rows, n.pk ≠ pk ∧ n.toAspExchangeInformation.SameLine info

instance (pk : Nat) (info : AspExchangeInformation) : Decidable (t.LineTaken pk info) :=
  inferInstanceAs (Decidable (∃ n ∈ t.rows, _))

/-- Save a row that a transition has changed. -/
def save (row : Notification.Handled) : Except TransitionError Notifications :=
  if t.LineTaken row.1.pk row.1.toAspExchangeInformation then .error (.integrity "unique_employeerecordupdatenotification_asp_batch_file_and_line")
  else .ok (t.rewrite (fun n => if n.pk = row.1.pk then row else n)
    (fun n => by split <;> simp_all) (fun n => by
      split
      · exact fun h => absurd h row.2
      · exact fun h => ⟨h, rfl⟩))

/-! ## The `NEW` rows -/

/-- The row of this key is the `NEW` one of the employee record. -/
def NewRow (pk employeeRecord : Nat) : Prop := ∃ n ∈ t.rows, n.pk = pk ∧ n.IsNewFor employeeRecord

variable {t} {t' : Notifications} {pk pk' r r' : Nat} {now : DateTime}

theorem hasNew_iff : t.HasNew r ↔ ∃ pk, t.NewRow pk r :=
  ⟨fun ⟨n, hn, hnew⟩ => ⟨n.pk, n, hn, rfl, hnew⟩, fun ⟨_, n, hn, _, hnew⟩ => ⟨n, hn, hnew⟩⟩

theorem NewRow.hasNew (h : t.NewRow pk r) : t.HasNew r := hasNew_iff.mpr ⟨pk, h⟩

/-- The partial unique index: an employee record has one `NEW` row at most. -/
theorem NewRow.pk_unique (h : t.NewRow pk r) (h' : t.NewRow pk' r) : pk = pk' := by
  obtain ⟨n, hn, rfl, hstatus, hrecord⟩ := h
  obtain ⟨n', hn', rfl, hstatus', hrecord'⟩ := h'
  have heq : n = n' := List.inj_on_of_nodup_map t.uniqueNewEmployeeRecord
    (List.mem_filter.mpr ⟨hn, by simpa using hstatus⟩) (List.mem_filter.mpr ⟨hn', by simpa using hstatus'⟩)
    (hrecord.trans hrecord'.symm)
  rw [heq]

theorem NewRow.employeeRecord_unique (h : t.NewRow pk r) (h' : t.NewRow pk r') : r = r' := by
  obtain ⟨n, hn, hpk, _, hrecord⟩ := h
  obtain ⟨n', hn', hpk', _, hrecord'⟩ := h'
  have heq : n = n' := List.inj_on_of_nodup_map t.pks hn hn' (hpk.trans hpk'.symm)
  rw [← hrecord, ← hrecord', heq]

theorem newRow_upsert : (t.upsert r now).NewRow pk r' ↔
    t.NewRow pk r' ∨ (pk = t.nextPk ∧ r' = r ∧ ¬ t.HasNew r) := by
  unfold upsert
  split
  · rename_i h
    simp only [h, not_true_eq_false, and_false, or_false, NewRow, rewrite, List.mem_map,
      exists_exists_and_eq_and]
    refine exists_congr fun n => and_congr_right fun _ => ?_
    split <;> exact Iff.rfl
  · rename_i h
    simp only [h, not_false_eq_true, and_true, NewRow, List.mem_cons, or_and_right, exists_or, exists_eq_left,
      newRow, Notification.IsNewFor, true_and]
    rw [or_comm, eq_comm (a := t.nextPk), eq_comm (a := r)]

theorem hasNew_upsert : (t.upsert r now).HasNew r' ↔ t.HasNew r' ∨ r' = r := by
  rw [hasNew_iff, exists_congr fun _ => newRow_upsert, exists_or, ← hasNew_iff]
  constructor
  · rintro (h | ⟨_, _, rfl, _⟩)
    · exact Or.inl h
    · exact Or.inr rfl
  · rintro (h | rfl)
    · exact Or.inl h
    · by_cases h : t.HasNew r'
      · exact Or.inl h
      · exact Or.inr ⟨t.nextPk, rfl, rfl, h⟩

theorem save_eq_ok {row : Notification.Handled} (h : t.save row = .ok t') :
    ¬ t.LineTaken row.1.pk row.1.toAspExchangeInformation ∧ t'.rows = t.rows.map fun n => if n.pk = row.1.pk then row.1 else n := by
  unfold save at h
  split at h
  · cases h
  · rename_i hfree
    cases h
    exact ⟨hfree, rfl⟩

/-- Saving a handled row leaves the `NEW` rows of the other keys. -/
theorem newRow_save {row : Notification.Handled} (h : t.save row = .ok t') :
    t'.NewRow pk r ↔ t.NewRow pk r ∧ pk ≠ row.1.pk := by
  simp only [NewRow, (save_eq_ok h).2, List.mem_map, exists_exists_and_eq_and]
  constructor
  · rintro ⟨n, hn, hpk, hnew⟩
    split at hpk
    · rename_i hrow
      rw [if_pos hrow] at hnew
      exact absurd hnew.1 row.2
    · rename_i hrow
      rw [if_neg hrow] at hnew
      exact ⟨⟨n, hn, hpk, hnew⟩, hpk ▸ hrow⟩
  · rintro ⟨⟨n, hn, rfl, hnew⟩, hpk⟩
    exact ⟨n, hn, by rw [if_neg hpk], by rw [if_neg hpk]; exact hnew⟩

/-- Saving the `NEW` row of an employee record, now handled, leaves it without one. -/
theorem hasNew_save {row : Notification.Handled} (h : t.save row = .ok t') (hrow : t.NewRow row.1.pk r') :
    t'.HasNew r ↔ t.HasNew r ∧ r ≠ r' := by
  simp only [hasNew_iff, newRow_save h]
  constructor
  · rintro ⟨pk, hpk, hne⟩
    exact ⟨⟨pk, hpk⟩, fun heq => hne ((heq ▸ hpk).pk_unique hrow)⟩
  · rintro ⟨⟨pk, hpk⟩, hne⟩
    exact ⟨pk, hpk, fun heq => hne ((heq ▸ hpk).employeeRecord_unique hrow)⟩

/-! ## The other rows -/

/-- A row after an upsert is a row from before with another `updated_at`, or a `NEW` row without a file. -/
theorem mem_upsert {n : Notification} (h : n ∈ (t.upsert r now).rows) :
    (∃ m ∈ t.rows, n.pk = m.pk ∧ n.status = m.status ∧
      n.toAspExchangeInformation = m.toAspExchangeInformation) ∨
      n.pk = t.nextPk ∧ n.status = .new ∧ n.toAspExchangeInformation = .empty := by
  unfold upsert at h
  split at h
  · obtain ⟨m, hm, rfl⟩ := List.mem_map.mp h
    refine Or.inl ⟨m, hm, ?_⟩
    split <;> exact ⟨rfl, rfl, rfl⟩
  · rcases List.mem_cons.mp h with rfl | h
    · exact Or.inr ⟨rfl, rfl, rfl⟩
    · exact Or.inl ⟨n, h, rfl, rfl, rfl⟩

/-- An upsert leaves the handled rows. -/
theorem mem_upsert_of_mem {n : Notification} (h : n ∈ t.rows) (hstatus : n.status ≠ .new) :
    n ∈ (t.upsert r now).rows := by
  unfold upsert
  split
  · refine List.mem_map.mpr ⟨n, h, if_neg fun hnew => hstatus hnew.1⟩
  · exact List.mem_cons_of_mem _ h

/-- A row after a save is the saved row or a row from before, of another key. -/
theorem mem_save {row : Notification.Handled} (h : t.save row = .ok t') {n : Notification} (hn : n ∈ t'.rows) :
    n = row.1 ∨ n ∈ t.rows ∧ n.pk ≠ row.1.pk := by
  rw [(save_eq_ok h).2] at hn
  obtain ⟨m, hm, rfl⟩ := List.mem_map.mp hn
  split
  · exact Or.inl rfl
  · rename_i hpk
    exact Or.inr ⟨hm, hpk⟩

theorem mem_save_of_mem {row : Notification.Handled} (h : t.save row = .ok t') {n : Notification} (hn : n ∈ t.rows)
    (hpk : n.pk ≠ row.1.pk) : n ∈ t'.rows := by
  rw [(save_eq_ok h).2]
  exact List.mem_map.mpr ⟨n, hn, if_neg hpk⟩

theorem mem_save_self {row : Notification.Handled} (h : t.save row = .ok t') {n : Notification} (hn : n ∈ t.rows)
    (hpk : n.pk = row.1.pk) : row.1 ∈ t'.rows := by
  rw [(save_eq_ok h).2]
  exact List.mem_map.mpr ⟨n, hn, if_pos hpk⟩

end Notifications

end Itou.EmployeeRecords
