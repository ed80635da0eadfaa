import Itou.EmployeeRecords.Feedback
import Itou.EmployeeRecords.Lemmas.Upload
import Itou.Lib.Words

/-!
# What the feedback files do to the employee records

A line settles the record that it finds, when it is `SENT`, and no line moves a record to another line: the first line
that finds a record settles it, and the others skip it.
-/

namespace Itou.EmployeeRecords.Feedback

open Itou.Lib

variable {remotePath : DateTime → String} {columns : Columns} {t t' u : Tables} {r r' : EmployeeRecord}
  {now : DateTime} {clock : Nat → DateTime} {file : String} {raw : Json} {lines : List Json} {idx k : Nat}
  {n : Option Int}

/-! ## File names -/

theorem timestampOf_remotePathFormat {timestamp : List Char} (h : timestamp.length = 14) :
    timestampOf (remotePathFormat timestamp) = timestamp := by
  have hstart : filenameStart.toList.length = 8 := rfl
  rw [timestampOf, remotePathFormat, String.toList_ofList, List.append_assoc, ← hstart, List.drop_left, ← h,
    List.take_left]

theorem validateAspBatchFilename_eq_ok {name : String} : validateAspBatchFilename name = .ok () ↔
    ∃ timestamp, timestamp.length = 14 ∧ name = remotePathFormat timestamp := by
  have hstart : filenameStart.toList.length = 8 := rfl
  have hend : fileExtension.length = 5 := rfl
  unfold validateAspBatchFilename
  constructor
  · intro h
    split at h
    · rename_i hvalid
      simp only [Bool.and_eq_true, List.isPrefixOf_iff_prefix, List.isSuffixOf_iff_suffix, decide_eq_true_eq] at hvalid
      obtain ⟨⟨⟨rest, hrest⟩, path, hpath⟩, hlength⟩ := hvalid
      rw [← String.length_toList, ← hrest, List.length_append, hstart] at hlength
      obtain ⟨timestamp, hleft, hright⟩ | ⟨c, hc, hright⟩ := List.append_eq_append_iff.1 (hrest.trans hpath.symm)
      · refine ⟨timestamp, ?_, ?_⟩
        · rw [hright, List.length_append, hend] at hlength
          omega
        · rw [remotePathFormat, ← String.ofList_toList (s := name), ← hrest, hright, List.append_assoc]
      · have := congrArg List.length hright
        rw [List.length_append, hend] at this
        omega
    · cases h
  · rintro ⟨timestamp, htimestamp, rfl⟩
    rw [if_pos]
    simp only [Bool.and_eq_true, List.isPrefixOf_iff_prefix, List.isSuffixOf_iff_suffix, decide_eq_true_eq]
    refine ⟨⟨?_, ?_⟩, ?_⟩
    · rw [remotePathFormat, String.toList_ofList, List.append_assoc]
      exact List.prefix_append ..
    · rw [remotePathFormat, String.toList_ofList]
      exact List.suffix_append ..
    · rw [remotePathFormat, ← String.length_toList, String.toList_ofList, List.length_append, List.length_append, hstart,
        htimestamp, hend]

theorem splitOn_remotePathFormat {timestamp : List Char} (h : '.' ∉ timestamp) :
    (remotePathFormat timestamp).toList.splitOn '.' = [filenameStart.toList ++ timestamp, fileExtension.tail] := by
  rw [splitOn_eq_pair_iff]
  refine ⟨String.toList_ofList .., ?_, by decide⟩
  rw [List.mem_append]
  exact not_or_intro (by decide) h

theorem dot_notMem_of_splitOn {timestamp path ext : List Char}
    (h : (remotePathFormat timestamp).toList.splitOn '.' = [path, ext]) : '.' ∉ timestamp := by
  obtain ⟨hname, hpath, hext⟩ := splitOn_eq_pair_iff.1 h
  have hone : List.count '.' (remotePathFormat timestamp).toList = 1 := by
    rw [hname, List.count_append, List.count_cons_self, List.count_eq_zero.2 hpath, List.count_eq_zero.2 hext]
  have hextension : List.count '.' fileExtension = 1 := by decide
  rw [remotePathFormat, String.toList_ofList, List.count_append, List.count_append, hextension] at hone
  exact List.count_eq_zero.1 (by omega)

/-- The name of a file gives that of its feedback when its only dot is the one before the extension. -/
theorem feedbackFilename_eq_ok {name f : String} : feedbackFilename name = .ok f ↔
    ∃ timestamp, timestamp.length = 14 ∧ '.' ∉ timestamp ∧ name = remotePathFormat timestamp ∧
      f = feedbackPathFormat timestamp := by
  simp only [feedbackFilename, bind_eq_ok]
  constructor
  · rintro ⟨⟨⟩, hvalid, h⟩
    obtain ⟨timestamp, hlength, rfl⟩ := validateAspBatchFilename_eq_ok.1 hvalid
    split at h
    · rename_i path ext hsplit
      have hdot := dot_notMem_of_splitOn hsplit
      rw [splitOn_remotePathFormat hdot] at hsplit
      cases hsplit
      cases h
      exact ⟨timestamp, hlength, hdot, rfl, rfl⟩
    · cases h
  · rintro ⟨timestamp, hlength, hdot, rfl, rfl⟩
    refine ⟨(), validateAspBatchFilename_eq_ok.2 ⟨timestamp, hlength, rfl⟩, ?_⟩
    rw [splitOn_remotePathFormat hdot]
    rfl

theorem batchFilenameFromFeedback_feedbackPathFormat {timestamp : List Char} (h : '.' ∉ timestamp) :
    batchFilenameFromFeedback (feedbackPathFormat timestamp) = .ok (remotePathFormat timestamp) := by
  have hsplit : (feedbackPathFormat timestamp).toList.splitOn '.' =
      [filenameStart.toList ++ timestamp ++ feedbackFileSuffix, fileExtension.tail] := by
    rw [splitOn_eq_pair_iff]
    refine ⟨String.toList_ofList .., ?_, by decide⟩
    rw [List.mem_append, List.mem_append]
    exact not_or_intro (not_or_intro (by decide) h) (by decide)
  have hsuffix : feedbackFileSuffix.isSuffixOf (filenameStart.toList ++ timestamp ++ feedbackFileSuffix) = true :=
    List.isSuffixOf_iff_suffix.2 (List.suffix_append ..)
  rw [batchFilenameFromFeedback, hsplit]
  simp only [hsuffix, if_true]
  rw [List.length_append, Nat.add_sub_cancel, List.take_left]
  rfl

/-! ## Rows -/

theorem SameLines.trans (h : SameLines t t') (h' : SameLines t' u) : SameLines t u :=
  ⟨h'.details.trans h.details, fun k => (h'.lookup k).trans (h.lookup k)⟩

/-- A record of the table is on the line. -/
def Tables.HasOnLine (t : Tables) (remotePath : DateTime → String) (file : String) (n : Option Int) (k : Nat) : Prop :=
  ∃ r, t.employeeRecords.lookup k = some r ∧ OnLine remotePath file n r

theorem SameLines.hasOnLine (h : SameLines t t') :
    t'.HasOnLine remotePath file n k ↔ t.HasOnLine remotePath file n k := by
  have hk := h.lookup k
  simp only [Tables.HasOnLine, OnLine]
  cases hl : t.employeeRecords.lookup k with
  | none =>
      rw [hl, Option.map_none, Option.map_eq_none_iff] at hk
      simp only [hk]
  | some r =>
      rw [hl, Option.map_some, Option.map_eq_some_iff] at hk
      obtain ⟨r', hr', heq⟩ := hk
      obtain ⟨hfile, hline⟩ := Prod.mk.inj heq
      simp only [hr', Option.some.injEq, exists_eq_left', hfile, hline]

/-! ## `find_by_batch` -/

theorem mem_onLine {l : List EmployeeRecord} :
    r ∈ l.filter (fun r => OnLine remotePath file n r) ↔ r ∈ l ∧ OnLine remotePath file n r := by
  rw [List.mem_filter, decide_eq_true_eq]

/-- The record that a line finds is in the table, on the line. -/
theorem findByBatch_eq_some (hkeyed : t.Keyed) (h : t.findByBatch remotePath file n = some r) :
    t.employeeRecords.lookup r.pk = some r ∧ OnLine remotePath file n r := by
  obtain ⟨hr, honline⟩ := mem_onLine.mp (mem_orderByDesc.mp (List.mem_of_mem_head? h))
  obtain ⟨k, hk⟩ := Table.mem_rows.mp hr
  exact ⟨by rw [hkeyed k r hk]; exact hk, honline⟩

theorem findByBatch_pk_iff (hkeyed : t.Keyed) : (t.findByBatch remotePath file n).map EmployeeRecord.pk = some k ↔
    t.HasOnLine remotePath file n k ∧ ∀ j, t.HasOnLine remotePath file n j →
      toLex ((t.details j).createdAt, j) ≤ toLex ((t.details k).createdAt, k) := by
  have hinj : ∀ x ∈ t.employeeRecords.rows.filter (fun r => OnLine remotePath file n r),
      ∀ y ∈ t.employeeRecords.rows.filter (fun r => OnLine remotePath file n r),
      toLex ((t.details x.pk).createdAt, x.pk) = toLex ((t.details y.pk).createdAt, y.pk) → x = y := by
    intro x hx y hy heq
    obtain ⟨j, hj⟩ := Table.mem_rows.mp (mem_onLine.mp hx).1
    obtain ⟨k, hk⟩ := Table.mem_rows.mp (mem_onLine.mp hy).1
    have hpk : x.pk = y.pk := (Prod.mk.inj (toLex.injective heq)).2
    rw [hkeyed j x hj, hkeyed k y hk] at hpk
    subst hpk
    exact Option.some.inj (hj.symm.trans hk)
  rw [Option.map_eq_some_iff]
  simp only [Tables.findByBatch, head?_orderByDesc_eq_some_iff hinj, mem_onLine]
  constructor
  · rintro ⟨r, ⟨⟨hr, honline⟩, hmax⟩, rfl⟩
    obtain ⟨k, hk⟩ := Table.mem_rows.mp hr
    obtain rfl := hkeyed k r hk
    refine ⟨⟨r, hk, honline⟩, ?_⟩
    rintro j ⟨r', hj, honline'⟩
    have hle := hmax r' ⟨Table.mem_rows.mpr ⟨j, hj⟩, honline'⟩
    rwa [hkeyed j r' hj] at hle
  · rintro ⟨⟨r, hk, honline⟩, hmax⟩
    obtain rfl := hkeyed k r hk
    refine ⟨r, ⟨⟨Table.mem_rows.mpr ⟨r.pk, hk⟩, honline⟩, ?_⟩, rfl⟩
    rintro r' ⟨hr', honline'⟩
    obtain ⟨j, hj⟩ := Table.mem_rows.mp hr'
    obtain rfl := hkeyed j r' hj
    exact hmax r'.pk ⟨r', hj, honline'⟩

/-- What a line finds depends on the lines of the records only. -/
theorem SameLines.findByBatch (h : SameLines t t') (hkeyed : t.Keyed) (hkeyed' : t'.Keyed) :
    (t'.findByBatch remotePath file n).map EmployeeRecord.pk = (t.findByBatch remotePath file n).map EmployeeRecord.pk := by
  refine Option.ext fun k => ?_
  rw [findByBatch_pk_iff hkeyed', findByBatch_pk_iff hkeyed, h.details]
  simp only [h.hasOnLine]

theorem SameLines.finds (h : SameLines t t') (hkeyed : t.Keyed) (hkeyed' : t'.Keyed) :
    t'.Finds remotePath columns file raw k ↔ t.Finds remotePath columns file raw k := by
  simp only [Tables.Finds, h.findByBatch hkeyed hkeyed']

/-! ## One line -/

/-- A transition of a line stores it, and leaves the record on its line. -/
structure Settled (r r' : EmployeeRecord) (codeTraitement : Json) (a : Stored) : Prop where
  pk : r'.pk = r.pk
  aspBatchFile : r'.aspBatchFile = r.aspBatchFile
  aspBatchLineNumber : r'.aspBatchLineNumber = r.aspBatchLineNumber
  status : r'.status = (transitionFor codeTraitement).target
  aspProcessingCode : r'.aspProcessingCode = a.code
  archivedJson : r'.archivedJson = some a.archive

theorem process_settled {jobApplication : JobApplication} {a : Stored} {asDuplicate : Bool} {codeTraitement : Json}
    (hcode : transitionFor codeTraitement = .process) (h : process r now jobApplication a asDuplicate = .ok r') :
    Settled r r' codeTraitement a := by
  obtain ⟨-, -, r₁, hr₁, rfl⟩ := EmployeeRecord.perform_eq_ok.mp h
  split at hr₁
  · cases hr₁
  · obtain ⟨_, _, rfl⟩ := map_eq_ok.mp hr₁
    exact ⟨rfl, rfl, rfl, by rw [hcode], rfl, rfl⟩

theorem settled_of_settle {jobApplication : JobApplication} {a : Stored} {codeTraitement : Json}
    (h : settle r now jobApplication codeTraitement a = .ok r') : Settled r r' codeTraitement a := by
  unfold settle at h
  split at h
  · rename_i hsuccess
    exact process_settled (by rw [transitionFor, hsuccess]; rfl) h
  · rename_i hsuccess
    split at h
    · rename_i hduplicate
      exact process_settled (by rw [transitionFor, hduplicate, Bool.or_true]; rfl) h
    · rename_i hduplicate
      have hcode : transitionFor codeTraitement = .reject := by
        rw [transitionFor, Bool.eq_false_iff.mpr hsuccess, Bool.eq_false_iff.mpr hduplicate]
        rfl
      obtain ⟨-, -, r₁, hr₁, rfl⟩ := EmployeeRecord.perform_eq_ok.mp h
      obtain ⟨_, _, rfl⟩ := map_eq_ok.mp hr₁
      exact ⟨rfl, rfl, rfl, by rw [hcode], rfl, rfl⟩

theorem target_transitionFor (codeTraitement : Json) : (transitionFor codeTraitement).target = statusFor codeTraitement := by
  rw [transitionFor, statusFor, aspProcessingSuccessCode, aspDuplicateErrorCode]
  split <;> rfl

theorem statusFor_ne_sent (codeTraitement : Json) : statusFor codeTraitement ≠ .sent := by
  unfold statusFor
  split <;> decide

theorem Answered.status_ne_sent {jobApplication : JobApplication} (h : Answered columns jobApplication now raw r r') :
    r'.status ≠ .sent := by
  obtain ⟨line, _, _, _, _, hstatus, _⟩ := h
  rw [hstatus]
  exact statusFor_ne_sent _

theorem save_eq_ok {db db' : Upload.Database} {log : Upload.TransitionLog} (h : db.save r log = .ok db') :
    db' = { employeeRecords := db.employeeRecords.insert r.pk r, logs := log :: db.logs } := by
  unfold Upload.Database.save at h
  split at h
  · cases h
  · split at h
    · cases h
    · exact (Except.ok.inj h).symm

/-- The tables after a line that settles a record. -/
theorem settle_eq_ok {line : Line} (hread : readLine raw = .ok line) (h : t.settle columns now raw line r = .ok t') :
    ∃ r' log, r'.pk = r.pk ∧ r'.aspBatchFile = r.aspBatchFile ∧ r'.aspBatchLineNumber = r.aspBatchLineNumber ∧
      Answered columns (t.details r.pk).jobApplication now raw r r' ∧ t'.details = t.details ∧
      t'.employeeRecords = t.employeeRecords.insert r.pk r' ∧ t'.logs = log :: t.logs := by
  obtain ⟨archive, harchive, h⟩ := bind_eq_ok.mp h
  obtain ⟨r', hr', h⟩ := bind_eq_ok.mp h
  obtain ⟨_, _, h⟩ := bind_eq_ok.mp h
  obtain ⟨db, hdb, h⟩ := bind_eq_ok.mp h
  cases h
  have hr' := mapError_eq_ok.mp hr'
  have hsettled := settled_of_settle hr'
  rw [save_eq_ok (mapError_eq_ok.mp hdb)]
  refine ⟨r', _, hsettled.pk, hsettled.aspBatchFile, hsettled.aspBatchLineNumber, ⟨line, archive, hread, harchive, hr',
    ?_, hsettled.aspProcessingCode⟩, rfl, by rw [hsettled.pk], rfl⟩
  rw [hsettled.status, target_transitionFor]

theorem parseLine_effect (hkeyed : t.Keyed) (h : t.parseLine remotePath columns (clock idx) file raw = .ok t') :
    Effect remotePath columns clock file idx [raw] t t' := by
  obtain ⟨line, hread, h⟩ := bind_eq_ok.mp h
  obtain ⟨n, hn, h⟩ := bind_eq_ok.mp h
  have hfinds : ∀ k, t.Finds remotePath columns file raw k ↔
      (t.findByBatch remotePath file n).map EmployeeRecord.pk = some k := by
    intro k
    constructor
    · rintro ⟨line', n', hread', hn', hfound⟩
      obtain rfl : line = line' := Except.ok.inj (hread.symm.trans hread')
      obtain rfl : n = n' := Except.ok.inj (hn.symm.trans hn')
      exact hfound
    · exact fun hfound => ⟨line, n, hread, hn, hfound⟩
  split at h
  · rename_i hnone
    cases h
    have hnot : ∀ k, ∀ r ∈ t.employeeRecords.lookup k, r.status = .sent → ¬ t.Finds remotePath columns file raw k := by
      intro k r hr hsent hfound
      obtain ⟨r', hr', hpk⟩ := Option.map_eq_some_iff.mp ((hfinds k).mp hfound)
      have hlookup := (findByBatch_eq_some hkeyed hr').1
      rw [hpk] at hlookup
      obtain rfl : r = r' := Option.some.inj (hr.symm.trans hlookup)
      rw [hr', Option.filter_some, if_pos (decide_eq_true hsent)] at hnone
      cases hnone
    refine ⟨hkeyed, ⟨rfl, fun _ => rfl⟩, fun _ hl => hl, fun _ _ => rfl, fun k r hr hsent before x after hlines _ hx => ?_⟩
    obtain rfl : x = raw := List.mem_singleton.mp (hlines ▸ List.mem_append_right before List.mem_cons_self)
    exact absurd hx (hnot k r hr hsent)
  · rename_i r hsome
    obtain ⟨hfound, hsent⟩ := Option.filter_eq_some_iff.mp hsome
    obtain ⟨hlookup, -⟩ := findByBatch_eq_some hkeyed hfound
    obtain ⟨r', log, hpk, hfile, hline, hanswered, hdetails, hrecords, hlogs⟩ := settle_eq_ok hread h
    have hself : t'.employeeRecords.lookup r.pk = some r' := by rw [hrecords]; exact AList.lookup_insert _
    have hother : ∀ k, k ≠ r.pk → t'.employeeRecords.lookup k = t.employeeRecords.lookup k := fun k hk => by
      rw [hrecords]
      exact AList.lookup_insert_ne hk
    refine ⟨fun k x hx => ?_, ⟨hdetails, fun k => ?_⟩, fun l hl => ?_, fun k hk => ?_,
      fun k x hx hxsent before y after hlines _ hy => ?_⟩
    · by_cases hk : k = r.pk
      · subst hk
        rw [hself] at hx
        cases hx
        exact hpk
      · rw [hother k hk] at hx
        exact hkeyed k x hx
    · by_cases hk : k = r.pk
      · subst hk
        rw [hself, hlookup, Option.map_some, Option.map_some, hfile, hline]
      · rw [hother k hk]
    · rw [hlogs]
      exact List.mem_cons_of_mem _ hl
    · refine hother k fun heq => hk r ?_ (of_decide_eq_true hsent) raw (List.mem_singleton.mpr rfl) ((hfinds k).mpr ?_)
      · rw [heq]
        exact hlookup
      · rw [hfound, heq]
        rfl
    · obtain ⟨rfl, rfl⟩ : before = [] ∧ y = raw := by
        cases before with
        | nil => exact ⟨rfl, (List.cons.inj hlines).1.symm⟩
        | cons b bs => exact absurd (List.cons.inj hlines).2 (by simp)
      have hk : r.pk = k := Option.some.inj (by rw [← (hfinds k).mp hy, hfound]; rfl)
      subst hk
      obtain rfl : r = x := Option.some.inj (hlookup.symm.trans hx)
      exact ⟨r', hself, hanswered⟩

/-! ## A file -/

theorem effect_nil (hkeyed : t.Keyed) : Effect remotePath columns clock file idx [] t t :=
  ⟨hkeyed, ⟨rfl, fun _ => rfl⟩, fun _ hl => hl, fun _ _ => rfl,
    fun _ _ _ _ before _ after hlines _ _ => absurd hlines (by simp)⟩

/-- The effect of one more line, before the others. -/
theorem Effect.cons (hkeyed : t.Keyed) (h : Effect remotePath columns clock file idx [raw] t u)
    (hrest : Effect remotePath columns clock file (idx + 1) lines u t') :
    Effect remotePath columns clock file idx (raw :: lines) t t' := by
  have hfinds : ∀ x k, u.Finds remotePath columns file x k ↔ t.Finds remotePath columns file x k := fun x k =>
    h.same.finds hkeyed h.keyed
  refine ⟨hrest.keyed, h.same.trans hrest.same, fun l hl => hrest.logs l (h.logs l hl), fun k hk => ?_,
    fun k r hr hsent before x after hlines hbefore hx => ?_⟩
  · have hfirst : u.employeeRecords.lookup k = t.employeeRecords.lookup k :=
      h.kept k fun r hr hsent y hy => hk r hr hsent y (List.mem_singleton.mp hy ▸ List.mem_cons_self)
    refine (hrest.kept k fun r hr hsent y hy => ?_).trans hfirst
    rw [hfinds]
    exact hk r (hfirst ▸ hr) hsent y (List.mem_cons_of_mem raw hy)
  · cases before with
    | nil =>
        obtain ⟨rfl, rfl⟩ := List.cons.inj hlines
        obtain ⟨r', hr', hanswered⟩ := h.answered k r hr hsent [] raw [] rfl (by simp) hx
        refine ⟨r', ?_, hanswered⟩
        -- The record is settled: the other lines skip it.
        rw [hrest.kept k fun y hy hsent' => absurd hsent' ?_]
        · exact hr'
        · rw [Option.some.inj (hy.symm.trans hr')]
          exact hanswered.status_ne_sent
    | cons b before =>
        obtain ⟨rfl, rfl⟩ := List.cons.inj hlines
        obtain ⟨hb, hbefore⟩ := List.forall_mem_cons.mp hbefore
        have hfirst : u.employeeRecords.lookup k = t.employeeRecords.lookup k :=
          h.kept k fun _ _ _ y hy => List.mem_singleton.mp hy ▸ hb
        obtain ⟨r', hr', hanswered⟩ := hrest.answered k r (hfirst.symm ▸ hr) hsent before x after rfl
          (fun y hy => (hfinds y k).not.mpr (hbefore y hy)) ((hfinds x k).mpr hx)
        refine ⟨r', hr', ?_⟩
        rw [List.length_cons, ← h.same.details, Nat.add_comm before.length, ← Nat.add_assoc]
        exact hanswered

/-- The lines of a file settle, each, the record that it is the first to find. -/
theorem parseLines_effect (hkeyed : t.Keyed) (h : t.parseLines remotePath columns clock file idx lines = .ok t') :
    Effect remotePath columns clock file idx lines t t' := by
  induction lines generalizing idx t with
  | nil =>
      cases h
      exact effect_nil hkeyed
  | cons raw lines ih =>
      obtain ⟨u, hu, h⟩ := bind_eq_ok.mp h
      have hfirst := parseLine_effect hkeyed hu
      exact hfirst.cons hkeyed (ih hfirst.keyed h)

/-! ## Lines that can be stored -/

theorem settle_isOk (now : DateTime) {jobApplication : JobApplication} {codeTraitement : Json} {a : Stored}
    (hsent : r.status = .sent) (hclean : jobApplication.clean = .ok ())
    (hcode : codeTraitement.isText aspDuplicateErrorCode = true → a.code = some aspDuplicateErrorCode) :
    ∃ r', settle r now jobApplication codeTraitement a = .ok r' := by
  have hperform : ∀ transition, Status.sent ∈ transition.sources → ∀ r₁ : EmployeeRecord,
      ∃ r', r.perform now transition true (.ok r₁) = .ok r' := fun transition hsource r₁ =>
    ⟨_, EmployeeRecord.perform_eq_ok.mpr ⟨hsent ▸ hsource, rfl, r₁, rfl, rfl⟩⟩
  unfold settle
  split
  · rw [process, hclean, Bool.false_and, if_neg (by decide)]
    exact hperform .process (by decide) _
  · split
    · rename_i hduplicate
      rw [process, hclean, hcode hduplicate, if_neg (by decide)]
      exact hperform .process (by decide) _
    · rw [reject, hclean]
      exact hperform .reject (by decide) _

/-- The record that a line settles keeps its line, which no other record has, and its log has none. -/
theorem save_isOk (now : DateTime) (ht : t.Ready) {r' : EmployeeRecord} {codeTraitement : Json} {a : Stored}
    (hr : t.employeeRecords.lookup r.pk = some r) (hsettled : Settled r r' codeTraitement a) :
    ∃ db, t.toDatabase.save r' (settleLog r now codeTraitement a) = .ok db := by
  unfold Upload.Database.save
  rw [if_neg, if_neg]
  · exact ⟨_, rfl⟩
  · rintro ⟨log, _, _, hfile, -, -⟩
    have hsome : log.aspBatchFile.isSome = true := by assumption
    rw [hfile] at hsome
    cases hsome
  · rintro ⟨e, he, hne, hsome, hfile, hline, hnumber⟩
    refine hne ?_
    rw [hsettled.pk]
    refine ht.unique _ _ e.2 r (AList.mem_lookup_iff.mpr he) hr ⟨hsome, ?_, hline, ?_⟩
    · rw [hfile, hsettled.aspBatchFile]
    · rw [hnumber, hsettled.aspBatchLineNumber]

theorem settleLine_isOk (now : DateTime) (hchar : ∀ text, columns.char (.string text) = some text) (ht : t.Ready) {line : Line}
    {archive : String} (harchive : columns.json raw = .ok archive)
    (hcheck : Stored.check ⟨columns.char line.codeTraitement, columns.char line.libelleTraitement, archive⟩ = .ok ())
    (hr : t.employeeRecords.lookup r.pk = some r) (hsent : r.status = .sent) :
    ∃ t', t.settle columns now raw line r = .ok t' := by
  have hcode : line.codeTraitement.isText aspDuplicateErrorCode = true →
      columns.char line.codeTraitement = some aspDuplicateErrorCode := by
    cases line.codeTraitement with
    | string text =>
        intro heq
        rw [hchar, of_decide_eq_true heq]
    | _ => rintro ⟨⟩
  obtain ⟨r', hr'⟩ := settle_isOk now
    (a := ⟨columns.char line.codeTraitement, columns.char line.libelleTraitement, archive⟩) hsent
    (ht.clean r.pk r hr hsent) hcode
  obtain ⟨db, hdb⟩ := save_isOk now ht hr (settled_of_settle hr')
  exact ⟨_, bind_eq_ok.mpr ⟨archive, harchive, bind_eq_ok.mpr ⟨r', mapError_eq_ok.mpr hr', bind_eq_ok.mpr ⟨(), hcheck,
    bind_eq_ok.mpr ⟨db, mapError_eq_ok.mpr hdb, rfl⟩⟩⟩⟩⟩

theorem parseLine_isOk (remotePath : DateTime → String) (now : DateTime) (file : String)
    (hchar : ∀ text, columns.char (.string text) = some text) (ht : t.Ready)
    (hraw : Storable columns raw) : ∃ t', t.parseLine remotePath columns now file raw = .ok t' := by
  obtain ⟨line, n, archive, hread, hn, harchive, hcheck⟩ := hraw
  cases hfilter : (t.findByBatch remotePath file n).filter fun r => r.status = .sent with
  | none =>
      refine ⟨t, bind_eq_ok.mpr ⟨line, hread, bind_eq_ok.mpr ⟨n, hn, ?_⟩⟩⟩
      rw [hfilter]
      rfl
  | some r =>
      obtain ⟨hfound, hsent⟩ := Option.filter_eq_some_iff.mp hfilter
      obtain ⟨t', ht'⟩ := settleLine_isOk now hchar ht harchive hcheck (findByBatch_eq_some ht.keyed hfound).1
        (of_decide_eq_true hsent)
      refine ⟨t', bind_eq_ok.mpr ⟨line, hread, bind_eq_ok.mpr ⟨n, hn, ?_⟩⟩⟩
      rw [hfilter]
      exact ht'

/-- A line leaves the lines of the records, and settles those that it changes. -/
theorem Effect.ready (ht : t.Ready) (h : Effect remotePath columns clock file idx [raw] t t') : t'.Ready where
  keyed := h.keyed
  unique j k r r' hr hr' hsame := by
    have hj := h.same.lookup j
    have hk := h.same.lookup k
    rw [hr, Option.map_some, eq_comm, Option.map_eq_some_iff] at hj
    rw [hr', Option.map_some, eq_comm, Option.map_eq_some_iff] at hk
    obtain ⟨x, hx, heq⟩ := hj
    obtain ⟨y, hy, heq'⟩ := hk
    obtain ⟨hfile, hline⟩ := Prod.mk.inj heq
    obtain ⟨hfile', hline'⟩ := Prod.mk.inj heq'
    refine ht.unique j k x y hx hy ?_
    rw [AspExchangeInformation.SameLine, hfile, hfile', hline, hline']
    exact hsame
  clean k r' hr' hsent := by
    rw [h.same.details]
    refine ht.clean k r' ?_ hsent
    rw [← hr', eq_comm]
    refine h.kept k fun r hr hsent' x hx hfinds => ?_
    obtain rfl := List.mem_singleton.mp hx
    obtain ⟨r'', hr'', hanswered⟩ := h.answered k r hr hsent' [] x [] rfl (by simp) hfinds
    obtain rfl : r' = r'' := Option.some.inj (hr'.symm.trans hr'')
    exact hanswered.status_ne_sent hsent

theorem parseLines_isOk (remotePath : DateTime → String) (clock : Nat → DateTime) (file : String) (idx : Nat)
    (hchar : ∀ text, columns.char (.string text) = some text) (ht : t.Ready)
    (hlines : ∀ raw ∈ lines, Storable columns raw) :
    ∃ t', t.parseLines remotePath columns clock file idx lines = .ok t' := by
  induction lines generalizing idx t with
  | nil => exact ⟨t, rfl⟩
  | cons raw lines ih =>
      obtain ⟨hraw, hlines⟩ := List.forall_mem_cons.mp hlines
      obtain ⟨u, hu⟩ := parseLine_isOk remotePath (clock idx) file hchar ht hraw
      obtain ⟨t', ht'⟩ := ih (idx + 1) ((parseLine_effect ht.keyed hu).ready ht) hlines
      exact ⟨t', bind_eq_ok.mpr ⟨u, hu, ht'⟩⟩

/-! ## Downloads -/

variable {s : State} {d : Download}

/-- A file is handled, or nothing changes. -/
theorem downloadFile_cases (remotePath : DateTime → String) (columns : Columns) (d : Download)
    (hkeyed : s.tables.Keyed) : s.downloadFile remotePath columns d = s ∨
    s.Handled remotePath columns (s.downloadFile remotePath columns d) d := by
  unfold State.downloadFile
  split
  · cases h : d.document >>= fun batch => s.tables.parseFeedbackFile remotePath columns d.clock d.filename batch with
    | error e => exact Or.inl rfl
    | ok tables =>
        obtain ⟨document, hdocument, h⟩ := bind_eq_ok.mp h
        obtain ⟨file, hfile, h⟩ := bind_eq_ok.mp h
        obtain ⟨lines, hlines, h⟩ := bind_eq_ok.mp h
        exact Or.inr ⟨document, file, lines, hdocument, hfile, hlines, parseLines_effect hkeyed h, rfl⟩
  · exact Or.inl rfl

/-- A feedback file that can be read and stored is handled. -/
theorem handled_of_storable (hchar : ∀ text, columns.char (.string text) = some text) (hready : s.tables.Ready)
    (hname : filenameStart.toList.isPrefixOf d.filename.toList = true) {document : Json}
    (hdocument : d.document = .ok document) (hfile : batchFilenameFromFeedback d.filename = .ok file)
    (hlines : linesOf document = .ok lines) (hstorable : ∀ raw ∈ lines, Storable columns raw) :
    s.Handled remotePath columns (s.downloadFile remotePath columns d) d := by
  obtain ⟨t', ht'⟩ := parseLines_isOk remotePath d.clock file 1 hchar hready hstorable
  have hparse : (d.document >>= fun batch => s.tables.parseFeedbackFile remotePath columns d.clock d.filename batch) =
      .ok t' :=
    bind_eq_ok.mpr ⟨document, hdocument, bind_eq_ok.mpr ⟨file, hfile, bind_eq_ok.mpr ⟨lines, hlines, ht'⟩⟩⟩
  rw [State.downloadFile, if_pos hname, hparse]
  exact ⟨document, file, lines, hdocument, hfile, hlines, parseLines_effect hready.keyed ht', rfl⟩

theorem keyed_downloadFile (hkeyed : s.tables.Keyed) : (s.downloadFile remotePath columns d).tables.Keyed := by
  rcases downloadFile_cases _ _ _ hkeyed with h | ⟨_, _, _, _, _, _, heffect, _⟩
  · rw [h]
    exact hkeyed
  · exact heffect.keyed

/-- A record that is not `SENT` stays as it is. -/
theorem lookup_downloadFile (hkeyed : s.tables.Keyed) (hr : s.tables.employeeRecords.lookup k = some r)
    (hsent : r.status ≠ .sent) : (s.downloadFile remotePath columns d).tables.employeeRecords.lookup k = some r := by
  rcases downloadFile_cases _ _ _ hkeyed with h | ⟨_, _, _, _, _, _, heffect, _⟩
  · rw [h]
    exact hr
  · refine (heffect.kept k fun r' hr' hsent' => absurd hsent' ?_).trans hr
    rwa [Option.some.inj (hr'.symm.trans hr)]

theorem lookup_downloads (hkeyed : s.tables.Keyed) (hr : s.tables.employeeRecords.lookup k = some r)
    (hsent : r.status ≠ .sent) (l : List Download) :
    (s.downloads remotePath columns l).tables.employeeRecords.lookup k = some r := by
  induction l generalizing s with
  | nil => exact hr
  | cons d l ih => exact ih (keyed_downloadFile hkeyed) (lookup_downloadFile hkeyed hr hsent)

theorem files_downloadFile (remotePath : DateTime → String) (columns : Columns) (s : State) (d : Download) :
    (s.downloadFile remotePath columns d).files = s.files ∨
      (s.downloadFile remotePath columns d).files = s.files.erase d.filename := by
  unfold State.downloadFile
  split
  · split
    · exact Or.inl rfl
    · exact Or.inr rfl
  · exact Or.inl rfl

/-- The files of other names stay. -/
theorem mem_files_downloads {filename : String} {l : List Download} (h : ∀ d ∈ l, filename ≠ d.filename) :
    filename ∈ (s.downloads remotePath columns l).files ↔ filename ∈ s.files := by
  induction l generalizing s with
  | nil => rfl
  | cons d l ih =>
      obtain ⟨hd, hl⟩ := List.forall_mem_cons.mp h
      refine (ih hl).trans ?_
      rcases files_downloadFile remotePath columns s d with heq | heq
      · rw [heq]
      · rw [heq, List.mem_erase_of_ne hd]

theorem nodup_files_downloads (hnodup : s.files.Nodup) (l : List Download) :
    (s.downloads remotePath columns l).files.Nodup := by
  induction l generalizing s with
  | nil => exact hnodup
  | cons d l ih =>
      refine ih ?_
      rcases files_downloadFile remotePath columns s d with heq | heq
      · rw [heq]
        exact hnodup
      · rw [heq]
        exact hnodup.erase d.filename

theorem keyed_downloads (hkeyed : s.tables.Keyed) (l : List Download) :
    (s.downloads remotePath columns l).tables.Keyed := by
  induction l generalizing s with
  | nil => exact hkeyed
  | cons d l ih => exact ih (keyed_downloadFile hkeyed)

/-- A file that is in the folder once is removed when its turn handles it, and by no other turn. -/
theorem notMem_files_iff (hkeyed : s.tables.Keyed) (hnodup : s.files.Nodup) (hmem : d.filename ∈ s.files)
    {l : List Download} (h : ∀ d' ∈ l, d.filename ≠ d'.filename) :
    d.filename ∉ ((s.downloadFile remotePath columns d).downloads remotePath columns l).files ↔
      s.Handled remotePath columns (s.downloadFile remotePath columns d) d := by
  rw [mem_files_downloads h]
  constructor
  · intro hgone
    rcases downloadFile_cases remotePath columns d hkeyed with heq | hhandled
    · rw [heq] at hgone
      exact absurd hmem hgone
    · exact hhandled
  · rintro ⟨_, _, _, _, _, _, _, hfiles⟩
    rw [hfiles]
    exact hnodup.not_mem_erase

theorem downloadFile_atomic (hkeyed : s.tables.Keyed) (d : Download) : s.Atomic remotePath columns d :=
  ⟨downloadFile_cases _ _ _ hkeyed, fun _ _ hr hsent l => lookup_downloads (keyed_downloadFile hkeyed) hr hsent l⟩

/-! ## Where the records were sent -/

theorem downloadFile_changesSent (hkeyed : s.tables.Keyed) (htraced : s.tables.Traced) (d : Download) :
    s.ChangesSent remotePath columns d := by
  intro k hk
  rcases downloadFile_cases remotePath columns d hkeyed with
    h | ⟨document, file, lines, hdocument, hfile, hlines, heffect, -⟩
  · exact absurd (by rw [h]) hk
  · refine ⟨document, file, lines, hdocument, hfile, hlines, ?_⟩
    by_contra hnot
    refine hk (heffect.kept k fun r hr hsent raw hraw hfinds => hnot ?_)
    obtain ⟨line, n, hread, hn, hfound⟩ := hfinds
    obtain ⟨r', hr', rfl⟩ := Option.map_eq_some_iff.mp hfound
    obtain ⟨hlookup, honline⟩ := findByBatch_eq_some hkeyed hr'
    obtain rfl : r = r' := Option.some.inj (hr.symm.trans hlookup)
    obtain ⟨batchFile, hbatchFile, -⟩ := Option.map_eq_some_iff.mp honline.1
    exact ⟨raw, hraw, line, n, hread, hn, r, hr, hsent, honline, batchFile, hbatchFile, htraced _ r hr batchFile hbatchFile⟩

/-! ## Steps -/

/-- The invariant of the tables. -/
structure Sound (db : Upload.Database) : Prop where
  keyed : ∀ k r, db.employeeRecords.lookup k = some r → r.pk = k
  traced : ∀ k, ∀ r ∈ db.employeeRecords.lookup k, ∀ batchFile ∈ r.aspBatchFile,
    ∃ log ∈ db.logs, SentAt k batchFile r.aspBatchLineNumber log

variable {db : Upload.Database}

/-- A record is written, with more logs. -/
theorem Sound.insert {logs : List Upload.TransitionLog} (h : Sound db) (hlogs : ∀ l ∈ db.logs, l ∈ logs)
    (htraced : ∀ batchFile ∈ r.aspBatchFile, ∃ log ∈ logs, SentAt r.pk batchFile r.aspBatchLineNumber log) :
    Sound { employeeRecords := db.employeeRecords.insert r.pk r, logs } := by
  refine ⟨fun k x hx => ?_, fun k x hx batchFile hbatchFile => ?_⟩
  · by_cases hk : k = r.pk
    · subst hk
      rw [AList.lookup_insert] at hx
      rw [← Option.some.inj hx]
    · rw [AList.lookup_insert_ne hk] at hx
      exact h.keyed k x hx
  · by_cases hk : k = r.pk
    · subst hk
      rw [AList.lookup_insert] at hx
      obtain rfl := Option.some.inj hx
      exact htraced batchFile hbatchFile
    · rw [AList.lookup_insert_ne hk] at hx
      obtain ⟨log, hlog, hsent⟩ := h.traced k x hx batchFile hbatchFile
      exact ⟨log, hlogs log hlog, hsent⟩

theorem Sound.create (h : Sound db) {pk : Nat} : Sound { db with
    employeeRecords := db.employeeRecords.insert pk { AspExchangeInformation.empty with
      pk, status := .new, processedAt := none, processedAsDuplicate := false, updatedAt := now } } :=
  h.insert (r := { AspExchangeInformation.empty with
    pk, status := .new, processedAt := none, processedAsDuplicate := false, updatedAt := now })
    (fun _ hl => hl) fun _ hbatchFile => absurd hbatchFile (by rintro ⟨⟩)

theorem Sound.delete (h : Sound db) (pk : Nat) : Sound {
    employeeRecords := db.employeeRecords.erase pk
    logs := db.logs.filter fun l => l.employeeRecord ≠ pk } := by
  have hother : ∀ k, ∀ r ∈ AList.lookup k (db.employeeRecords.erase pk), k ≠ pk ∧ db.employeeRecords.lookup k = some r := by
    intro k r hr
    by_cases hk : k = pk
    · subst hk
      rw [AList.lookup_erase] at hr
      cases hr
    · rw [AList.lookup_erase_ne hk] at hr
      exact ⟨hk, hr⟩
  refine ⟨fun k r hr => h.keyed k r (hother k r hr).2, fun k r hr batchFile hbatchFile => ?_⟩
  obtain ⟨hk, hr⟩ := hother k r hr
  obtain ⟨log, hlog, hsent⟩ := h.traced k r hr batchFile hbatchFile
  refine ⟨log, List.mem_filter.mpr ⟨hlog, decide_eq_true ?_⟩, hsent⟩
  rwa [hsent.1]

/-- A call leaves the record on its line. -/
theorem take_keeps {c : Call} {jobApplication : JobApplication} (h : c.take r now jobApplication = .ok r') :
    r'.pk = r.pk ∧ r'.aspBatchFile = r.aspBatchFile ∧ r'.aspBatchLineNumber = r.aspBatchLineNumber := by
  cases c with
  | ready =>
      obtain ⟨-, -, r₁, hr₁, rfl⟩ := EmployeeRecord.perform_eq_ok.mp h
      obtain ⟨_, _, hr₁⟩ := bind_eq_ok.mp hr₁
      obtain ⟨_, _, hr₁⟩ := bind_eq_ok.mp hr₁
      cases hr₁
      exact ⟨rfl, rfl, rfl⟩
  | disable =>
      obtain ⟨-, -, r₁, hr₁, rfl⟩ := EmployeeRecord.perform_eq_ok.mp h
      cases hr₁
      exact ⟨rfl, rfl, rfl⟩
  | enable =>
      obtain ⟨-, -, r₁, hr₁, rfl⟩ := EmployeeRecord.perform_eq_ok.mp h
      obtain ⟨_, _, rfl⟩ := map_eq_ok.mp hr₁
      exact ⟨rfl, rfl, rfl⟩
  | archive approvalIsValid approvalCanBeProlonged =>
      obtain ⟨-, -, r₁, hr₁, rfl⟩ := EmployeeRecord.perform_eq_ok.mp h
      cases hr₁
      exact ⟨rfl, rfl, rfl⟩
  | unarchiveTo transition =>
      simp only [Call.take] at h
      split at h
      · obtain ⟨-, -, r₁, hr₁, rfl⟩ := EmployeeRecord.perform_eq_ok.mp h
        cases hr₁
        exact ⟨rfl, rfl, rfl⟩
      · cases h

theorem Sound.call (h : Sound t.toDatabase) {pk : Nat} {c : Call} (hc : t.call now pk c = some t') :
    Sound t'.toDatabase := by
  obtain ⟨r, hr, hc⟩ := Option.bind_eq_some_iff.mp hc
  obtain ⟨r', hr', hc⟩ := Option.bind_eq_some_iff.mp hc
  obtain ⟨db, hdb, hc⟩ := Option.bind_eq_some_iff.mp hc
  cases hc
  obtain ⟨hpk, hfile, hline⟩ := take_keeps (toOption_eq_some.mp hr')
  rw [save_eq_ok (toOption_eq_some.mp hdb)]
  refine h.insert (fun l hl => List.mem_cons_of_mem _ hl) fun batchFile hbatchFile => ?_
  rw [hfile] at hbatchFile
  obtain ⟨log, hlog, hsent⟩ := h.traced pk r hr batchFile hbatchFile
  rw [hpk, hline, h.keyed pk r hr]
  exact ⟨log, List.mem_cons_of_mem _ hlog, hsent⟩

theorem Sound.markSent {batchFile : DateTime} (h : Sound db) (lineNumber : Nat)
    (l : List (Upload.FetchedRecord × String)) : Sound (Upload.markSent clock batchFile lineNumber l db).1 := by
  induction l generalizing db lineNumber with
  | nil => exact h
  | cons x l ih =>
      obtain ⟨fetched, archive⟩ := x
      cases hstep : db.waitForAspResponse fetched (clock lineNumber) batchFile lineNumber archive with
      | error e =>
          simp only [Upload.markSent, hstep]
          exact h
      | ok db' =>
          simp only [Upload.markSent, hstep]
          refine ih ?_ (lineNumber + 1)
          obtain ⟨_, _, _, rfl⟩ := Upload.waitForAspResponse_eq_ok.mp hstep
          refine h.insert (r := Upload.sentRecord fetched.record (clock lineNumber) batchFile lineNumber archive)
            (fun l hl => List.mem_cons_of_mem _ hl) fun f hf => ⟨_, List.mem_cons_self, rfl, rfl, hf, rfl⟩

theorem Sound.upload (h : Sound db) {serializer : Upload.FetchedRecord → Except TransitionError String}
    {putfo : DateTime → List String → Bool} (records : List Upload.FetchedRecord) :
    Sound (Upload.uploadBatchFile serializer putfo clock records db).database := by
  unfold Upload.uploadBatchFile
  split
  · exact h
  · split
    · exact h
    · split
      · exact h.markSent 1 _
      · exact h

theorem Sound.download (h : Sound s.tables.toDatabase) (d : Download) :
    Sound (s.downloadFile remotePath columns d).tables.toDatabase := by
  rcases downloadFile_cases remotePath columns d h.keyed with
    heq | ⟨_, _, _, _, _, _, heffect, _⟩
  · rw [heq]
    exact h
  · refine ⟨heffect.keyed, fun k r' hr' batchFile hbatchFile => ?_⟩
    have hsame := heffect.same.lookup k
    rw [Option.mem_def.mp hr', Option.map_some, eq_comm, Option.map_eq_some_iff] at hsame
    obtain ⟨r, hr, heq⟩ := hsame
    obtain ⟨hfile, hline⟩ := Prod.mk.inj heq
    obtain ⟨log, hlog, hsent⟩ := h.traced k r hr batchFile (hfile ▸ hbatchFile)
    exact ⟨log, heffect.logs log hlog, hline ▸ hsent⟩

/-- Each step of the site and of the exchanges keeps the invariant. -/
theorem Sound.step {s' : State} {a : Action} (h : Sound s.tables.toDatabase)
    (hstep : s.step remotePath columns a = some s') : Sound s'.tables.toDatabase := by
  cases a with
  | create now pk =>
      obtain ⟨tables, htables, rfl⟩ := Option.map_eq_some_iff.mp hstep
      unfold Tables.create at htables
      split at htables
      · cases htables
      · cases htables
        exact h.create
  | delete pk =>
      cases hstep
      exact h.delete pk
  | call now pk c =>
      obtain ⟨tables, htables, rfl⟩ := Option.map_eq_some_iff.mp hstep
      exact h.call htables
  | upload serializer putfo clock =>
      cases hstep
      exact h.upload _
  | download d =>
      cases hstep
      exact h.download d
  | elsewhere details approvals notifications files =>
      cases hstep
      exact h

end Itou.EmployeeRecords.Feedback
