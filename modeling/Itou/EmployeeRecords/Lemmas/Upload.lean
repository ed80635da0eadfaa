import Itou.EmployeeRecords.Upload

/-!
# What the loop of the upload leaves behind

The loop marks all the records exactly when it raises nothing, and it raises nothing exactly when each record
passes `clean` and finds its line free.
-/

namespace Itou.EmployeeRecords.Upload

open Itou.Lib

/-- The record that a mark saves. -/
def sentRecord (r : EmployeeRecord) (now file : DateTime) (lineNumber : Nat) (archive : String) : EmployeeRecord :=
  { r with
    toAspExchangeInformation := r.toAspExchangeInformation.setAspBatchInformation file lineNumber archive
    status := .sent
    updatedAt := now }

/-- The tables after a mark. -/
def Database.marked (db : Database) (r : EmployeeRecord) (now file : DateTime) (lineNumber : Nat)
    (archive : String) : Database where
  employeeRecords := db.employeeRecords.insert r.pk (sentRecord r now file lineNumber archive)
  logs := waitForAspResponseLog r now file lineNumber archive :: db.logs

/-! ## One record -/

theorem sameLine_setAspBatchInformation {info info' : AspExchangeInformation} {file : DateTime} {lineNumber : Nat}
    {archive : String} :
    info.SameLine (info'.setAspBatchInformation file lineNumber archive) ↔ OnLine file lineNumber info := by
  simp only [AspExchangeInformation.SameLine, AspExchangeInformation.setAspBatchInformation, OnLine]
  constructor
  · rintro ⟨_, hfile, _, hline⟩
    exact ⟨hfile, hline⟩
  · rintro ⟨hfile, hline⟩
    exact ⟨by rw [hfile]; rfl, hfile, by rw [hline]; rfl, hline⟩

/-- When a record is marked, and what this does to the tables. -/
theorem waitForAspResponse_eq_ok {db db' : Database} {r : FetchedRecord} {now file : DateTime} {lineNumber : Nat}
    {archive : String} : db.waitForAspResponse r now file lineNumber archive = .ok db' ↔
      r.record.status = .ready ∧ r.jobApplication.clean = .ok () ∧
        db.LineFree file lineNumber [r.record.pk] ∧ db' = db.marked r.record now file lineNumber archive := by
  simp only [Database.waitForAspResponse, bind_eq_ok, EmployeeRecord.waitForAspResponse_eq_ok, Database.save]
  constructor
  · rintro ⟨r', ⟨hready, hclean, rfl⟩, h⟩
    split at h
    · cases h
    · rename_i hrecords
      split at h
      · cases h
      · rename_i hlogs
        cases h
        refine ⟨hready, hclean, ⟨fun e he honline => ?_, fun l hl honline => ?_⟩, rfl⟩
        · by_contra hne
          exact hrecords ⟨e, he, fun heq => hne (List.mem_singleton.mpr heq),
            sameLine_setAspBatchInformation.mpr honline⟩
        · exact hlogs ⟨l, hl, sameLine_setAspBatchInformation.mpr honline⟩
  · rintro ⟨hready, hclean, ⟨hrecords, hlogs⟩, rfl⟩
    refine ⟨_, ⟨hready, hclean, rfl⟩, ?_⟩
    rw [if_neg, if_neg]
    · rfl
    · rintro ⟨l, hl, hsame⟩
      exact hlogs l hl (sameLine_setAspBatchInformation.mp hsame)
    · rintro ⟨e, he, hne, hsame⟩
      exact hne (List.mem_singleton.mp (hrecords e he (sameLine_setAspBatchInformation.mp hsame)))

theorem lookup_marked_self (db : Database) (r : EmployeeRecord) (now file : DateTime) (lineNumber : Nat)
    (archive : String) : (db.marked r now file lineNumber archive).employeeRecords.lookup r.pk =
      some (sentRecord r now file lineNumber archive) :=
  AList.lookup_insert _

theorem lookup_marked_of_ne {db : Database} {r : EmployeeRecord} {now file : DateTime} {lineNumber pk : Nat}
    {archive : String} (h : pk ≠ r.pk) :
    (db.marked r now file lineNumber archive).employeeRecords.lookup pk = db.employeeRecords.lookup pk :=
  AList.lookup_insert_ne h

theorem forall_entries {p : Nat → EmployeeRecord → Prop} {t : Table EmployeeRecord} :
    (∀ e ∈ t.entries, p e.1 e.2) ↔ ∀ pk row, t.lookup pk = some row → p pk row :=
  ⟨fun h pk row hrow => h ⟨pk, row⟩ (AList.mem_lookup_iff.mp hrow),
    fun h e he => h e.1 e.2 (AList.mem_lookup_iff.mpr he)⟩

/-- The mark of a record frees no line for the others but its own old one. -/
theorem lineFree_marked {db : Database} {r : EmployeeRecord} {now file : DateTime} {lineNumber lineNumber' : Nat}
    {archive : String} {pks : List Nat} (hne : lineNumber' ≠ lineNumber) :
    (db.marked r now file lineNumber archive).LineFree file lineNumber' pks ↔
      db.LineFree file lineNumber' (r.pk :: pks) := by
  have hsent : ∀ info : AspExchangeInformation,
      ¬ OnLine file lineNumber' (info.setAspBatchInformation file lineNumber archive) := fun info honline =>
    hne (Option.some.inj honline.2).symm
  unfold Database.LineFree
  refine and_congr ?_ ?_
  · rw [forall_entries (p := fun pk row => OnLine file lineNumber' row.toAspExchangeInformation → pk ∈ pks),
      forall_entries (p := fun pk row => OnLine file lineNumber' row.toAspExchangeInformation → pk ∈ r.pk :: pks)]
    refine forall_congr' fun pk => ?_
    by_cases hpk : pk = r.pk
    · subst hpk
      rw [lookup_marked_self]
      exact iff_of_true (fun row hrow honline => absurd (Option.some.inj hrow ▸ honline) (hsent _))
        fun _ _ _ => List.mem_cons_self
    · simp only [lookup_marked_of_ne hpk, List.mem_cons, hpk, false_or]
  · simp only [Database.marked, List.forall_mem_cons]
    exact and_iff_right (hsent _)

/-! ## The loop -/

variable {clock : Nat → DateTime} {file : DateTime}

/-- The primary keys of the records to mark. -/
def pksOf (lines : List (FetchedRecord × String)) : List Nat := lines.map fun l => l.1.record.pk

/-- The loop raises nothing exactly when no record of it is to raise. -/
theorem markSent_raised_eq_none_iff {lineNumber : Nat} {lines : List (FetchedRecord × String)} {db : Database}
    (hready : ∀ l ∈ lines, l.1.record.status = .ready) :
    (markSent clock file lineNumber lines db).2 = none ↔
      ∀ k (hk : k < lines.length), lines[k].1.jobApplication.clean = .ok () ∧
        db.LineFree file (lineNumber + k) (pksOf (lines.take (k + 1))) := by
  induction lines generalizing lineNumber db with
  | nil => exact iff_of_true rfl fun k hk => absurd hk (Nat.not_lt_zero k)
  | cons l rest ih =>
      obtain ⟨r, archive⟩ := l
      rw [List.forall_mem_cons] at hready
      cases h : db.waitForAspResponse r (clock lineNumber) file lineNumber archive with
      | error e =>
          simp only [markSent, h]
          refine iff_of_false nofun fun hall => ?_
          obtain ⟨hclean, hfree⟩ := hall 0 (Nat.succ_pos _)
          have hok : db.waitForAspResponse r (clock lineNumber) file lineNumber archive = .ok _ :=
            waitForAspResponse_eq_ok.mpr ⟨hready.1, hclean, hfree, rfl⟩
          rw [h] at hok
          cases hok
      | ok db' =>
          obtain ⟨_, hclean, hfree, rfl⟩ := waitForAspResponse_eq_ok.mp h
          simp only [markSent, h]
          rw [ih hready.2]
          have hline : ∀ k, lineNumber + 1 + k = lineNumber + (k + 1) := fun k => by omega
          have hnext : ∀ k, lineNumber + (k + 1) ≠ lineNumber := fun k => by omega
          simp only [hline, lineFree_marked (hnext _)]
          constructor
          · intro hall k hk
            cases k with
            | zero => exact ⟨hclean, hfree⟩
            | succ k => exact hall k (Nat.lt_of_succ_lt_succ hk)
          · exact fun hall k hk => hall (k + 1) (Nat.succ_lt_succ hk)

/-- The loop leaves the rows of the other records. -/
theorem lookup_markSent_of_notMem {lineNumber pk : Nat} {lines : List (FetchedRecord × String)} {db : Database}
    (h : pk ∉ pksOf lines) :
    (markSent clock file lineNumber lines db).1.employeeRecords.lookup pk = db.employeeRecords.lookup pk := by
  induction lines generalizing lineNumber db with
  | nil => rfl
  | cons l rest ih =>
      obtain ⟨r, archive⟩ := l
      simp only [pksOf, List.map_cons, List.mem_cons, not_or] at h
      cases hstep : db.waitForAspResponse r (clock lineNumber) file lineNumber archive with
      | error e => simp only [markSent, hstep]
      | ok db' =>
          obtain ⟨_, _, _, rfl⟩ := waitForAspResponse_eq_ok.mp hstep
          simp only [markSent, hstep]
          rw [ih h.2, lookup_marked_of_ne h.1]

/-- When the loop raises nothing, all the records are marked, each with its line. -/
theorem marked_of_raised_eq_none {lineNumber : Nat} {lines : List (FetchedRecord × String)} {db : Database}
    (hnodup : (pksOf lines).Nodup) (h : (markSent clock file lineNumber lines db).2 = none) :
    ∀ k (hk : k < lines.length),
      (markSent clock file lineNumber lines db).1.Marked file (lineNumber + k) lines[k].1.record.pk := by
  induction lines generalizing lineNumber db with
  | nil => exact fun k hk => absurd hk (Nat.not_lt_zero k)
  | cons l rest ih =>
      obtain ⟨r, archive⟩ := l
      rw [pksOf, List.map_cons, List.nodup_cons] at hnodup
      cases hstep : db.waitForAspResponse r (clock lineNumber) file lineNumber archive with
      | error e => simp only [markSent, hstep] at h; cases h
      | ok db' =>
          obtain ⟨_, _, _, rfl⟩ := waitForAspResponse_eq_ok.mp hstep
          simp only [markSent, hstep] at h ⊢
          intro k hk
          cases k with
          | zero =>
              exact ⟨_, (lookup_markSent_of_notMem hnodup.1).trans (lookup_marked_self ..), rfl, rfl, rfl⟩
          | succ k =>
              have hk' := ih hnodup.2 h k (Nat.lt_of_succ_lt_succ hk)
              rwa [show lineNumber + 1 + k = lineNumber + (k + 1) by omega] at hk'

/-- When the loop raises, some record is left as it was. -/
theorem untouched_of_raised_ne_none {lineNumber : Nat} {lines : List (FetchedRecord × String)} {db : Database}
    (hnodup : (pksOf lines).Nodup) (h : (markSent clock file lineNumber lines db).2 ≠ none) :
    ∃ k, ∃ hk : k < lines.length,
      (markSent clock file lineNumber lines db).1.employeeRecords.lookup lines[k].1.record.pk =
        db.employeeRecords.lookup lines[k].1.record.pk := by
  induction lines generalizing lineNumber db with
  | nil => exact absurd rfl h
  | cons l rest ih =>
      obtain ⟨r, archive⟩ := l
      rw [pksOf, List.map_cons, List.nodup_cons] at hnodup
      cases hstep : db.waitForAspResponse r (clock lineNumber) file lineNumber archive with
      | error e =>
          refine ⟨0, Nat.succ_pos _, ?_⟩
          simp only [markSent, hstep]
      | ok db' =>
          obtain ⟨_, _, _, rfl⟩ := waitForAspResponse_eq_ok.mp hstep
          simp only [markSent, hstep] at h ⊢
          obtain ⟨k, hk, hlookup⟩ := ih hnodup.2 h
          have hne : rest[k].1.record.pk ≠ r.record.pk := fun heq =>
            hnodup.1 (heq ▸ List.mem_map_of_mem (List.getElem_mem hk))
          exact ⟨k + 1, Nat.succ_lt_succ hk, hlookup.trans (lookup_marked_of_ne hne)⟩

/-! ## The upload -/

theorem length_batch (records : List FetchedRecord) : (batch records).length = records.length :=
  List.length_mapIdx

theorem length_zip_batch {records : List FetchedRecord} {lines : List String}
    (hlength : lines.length = records.length) : ((batch records).zip lines).length = records.length := by
  rw [List.length_zip, length_batch, hlength, min_self]

theorem pksOf_zip_batch {records : List FetchedRecord} {lines : List String}
    (hlength : lines.length = records.length) :
    pksOf ((batch records).zip lines) = records.map fun r => r.record.pk := by
  refine List.ext_getElem ?_ fun i _ _ => ?_
  · simp [pksOf, length_batch, hlength]
  · simp [pksOf, batch]

/-- What an uploaded file says of the call: the records were marked, or their marks were begun. -/
theorem uploadBatchFile_of_uploaded {serializer : FetchedRecord → Except TransitionError String}
    {putfo : DateTime → List String → Bool} {records : List FetchedRecord} {db : Database} {lines : List String}
    (h : (uploadBatchFile serializer putfo clock records db).uploaded = some (file, lines)) :
    lines.length = records.length ∧ (uploadBatchFile serializer putfo clock records db).database =
      (markSent clock file 1 ((batch records).zip lines) db).1 := by
  unfold uploadBatchFile at h ⊢
  split at h
  · cases h
  · rename_i hmax
    rw [if_neg hmax]
    split at h
    · cases h
    · rename_i lines' hlines
      split at h
      · rename_i hput
        cases h
        simp only [hput, if_true]
        exact ⟨(length_of_mapM_eq_ok hlines).trans (length_batch records), trivial⟩
      · cases h

/-- The records of a call that has uploaded its file are all marked exactly when the loop raises nothing. -/
theorem marked_iff_raised_eq_none {records : List FetchedRecord} {lines : List String} {db : Database}
    (hlength : lines.length = records.length) (hnodup : (records.map fun r => r.record.pk).Nodup)
    (hready : ∀ r ∈ records, r.record.status = .ready)
    (hstored : ∀ r ∈ records, db.employeeRecords.lookup r.record.pk = some r.record) :
    (∀ i (hi : i < records.length), (markSent clock file 1 ((batch records).zip lines) db).1.Marked file (i + 1)
      records[i].record.pk) ↔ (markSent clock file 1 ((batch records).zip lines) db).2 = none := by
  have hnodup' : (pksOf ((batch records).zip lines)).Nodup := by rwa [pksOf_zip_batch hlength]
  have hpk : ∀ i (hi : i < ((batch records).zip lines).length) (hi' : i < records.length),
      ((batch records).zip lines)[i].1.record.pk = records[i].record.pk := fun i hi hi' => by
    simp [batch]
  have hzip := length_zip_batch hlength
  constructor
  · intro hmarked
    by_contra hraised
    obtain ⟨k, hk, hlookup⟩ := untouched_of_raised_ne_none hnodup' hraised
    have hk' : k < records.length := hzip ▸ hk
    obtain ⟨row, hrow, hsent, _⟩ := hmarked k hk'
    have hmem := List.getElem_mem hk'
    rw [hpk k hk hk', hrow, hstored _ hmem] at hlookup
    rw [Option.some.inj hlookup, hready _ hmem] at hsent
    cases hsent
  · intro hraised i hi
    have hi' := hzip.symm ▸ hi
    have hmarked := marked_of_raised_eq_none hnodup' hraised i hi'
    rwa [hpk i hi' hi, Nat.add_comm] at hmarked

end Itou.EmployeeRecords.Upload
