import Itou.EmployeeRecords.Lemmas.Creation
import Itou.EmployeeRecords.Lemmas.Delivery
import Itou.EmployeeRecords.Lemmas.Feedback
import Itou.EmployeeRecords.Lemmas.Persons
import Itou.EmployeeRecords.Lemmas.Updates
import Itou.EmployeeRecords.Lemmas.Upload

/-!
# What the ASP gets of the employee records
-/

namespace Itou.EmployeeRecords

open Itou.Lib

/-! ## The upload of employee records -/

namespace Upload

instance (db : Database) (file : DateTime) (lineNumber pk : Nat) : Decidable (db.Marked file lineNumber pk) :=
  inferInstanceAs (Decidable (∃ row ∈ db.employeeRecords.lookup pk, _))

/-- **Sent but not marked.** Once the file is uploaded, all its records are `SENT` on their lines of it exactly when
each of them passes `clean` and finds its line free of the rows that were not marked before it. -/
theorem uploaded_records_sent_iff (serializer : FetchedRecord → Except TransitionError String)
    (putfo : DateTime → List String → Bool) (clock : Nat → DateTime) (records : List FetchedRecord) (db : Database)
    {file : DateTime} {lines : List String} (hnodup : (records.map fun r => r.record.pk).Nodup)
    (hready : ∀ r ∈ records, r.record.status = .ready)
    (hstored : ∀ r ∈ records, db.employeeRecords.lookup r.record.pk = some r.record)
    (huploaded : (uploadBatchFile serializer putfo clock records db).uploaded = some (file, lines)) :
    (∀ i (hi : i < records.length),
      (uploadBatchFile serializer putfo clock records db).database.Marked file (i + 1) records[i].record.pk) ↔
      ∀ i (hi : i < records.length), records[i].jobApplication.clean = .ok () ∧
        db.LineFree file (i + 1) ((records.take (i + 1)).map fun r => r.record.pk) := by
  obtain ⟨hlength, hdatabase⟩ := uploadBatchFile_of_uploaded huploaded
  have hzip := length_zip_batch hlength
  have hready' : ∀ l ∈ (batch records).zip lines, l.1.record.status = .ready := by
    intro l hl
    obtain ⟨i, hi, hbatch⟩ := List.mem_mapIdx.mp (List.of_mem_zip hl).1
    rw [← hbatch]
    exact hready records[i] (List.getElem_mem hi)
  rw [hdatabase, marked_iff_raised_eq_none hlength hnodup hready hstored, markSent_raised_eq_none_iff hready']
  have hpks : ∀ i, pksOf (((batch records).zip lines).take (i + 1)) =
      (records.take (i + 1)).map fun r => r.record.pk := fun i => by
    rw [pksOf, List.map_take, ← pksOf, pksOf_zip_batch hlength, List.map_take]
  have hclean : ∀ i (hi : i < ((batch records).zip lines).length) (hi' : i < records.length),
      ((batch records).zip lines)[i].1.jobApplication = records[i].jobApplication := fun i hi hi' => by
    simp [batch]
  constructor
  · intro hall i hi
    have hi' := hzip.symm ▸ hi
    have hi'' := hall i hi'
    rwa [hclean i hi' hi, hpks, Nat.add_comm] at hi''
  · intro hall i hi
    have hi' := hall i (hzip ▸ hi)
    rwa [hclean i hi (hzip ▸ hi), hpks, Nat.add_comm 1 i]

def exampleJobSeeker (educationLevel : String) : JobSeeker where
  title := "MME"
  profile := { educationLevel, hexaAddress := ⟨"3", "", "", "RUE", "DES LILAS", "", "75020", some 75120⟩ }

/-- A `READY` employee record of an accepted job application. -/
def exampleRecord (pk : Nat) (educationLevel : String) : FetchedRecord where
  record := { AspExchangeInformation.empty with
    pk, status := .ready, processedAt := none, processedAsDuplicate := false, updatedAt := ⟨10, 0⟩ }
  jobApplication := ⟨.accepted, some 1, some pk, exampleJobSeeker educationLevel⟩

/-- The tables with these records. -/
def exampleDatabase (records : List FetchedRecord) : Database where
  employeeRecords := records.foldr (fun r t => t.insert r.record.pk r.record) ∅
  logs := []

/-- The education level of the second job seeker was emptied after `ready`. -/
def emptiedProfile : List FetchedRecord := [exampleRecord 1 "50", exampleRecord 2 "", exampleRecord 3 "50"]

/-- All three records are in the file, and two of them are still `READY`. -/
theorem uploaded_record_not_sent :
    let outcome := uploadBatchFile (fun _ => .ok "") (fun _ _ => true) (fun i => ⟨20, i⟩) emptiedProfile
      (exampleDatabase emptiedProfile)
    (∀ r ∈ emptiedProfile, r.record.status = .ready ∧ r.jobApplication.state = .accepted) ∧
      outcome.uploaded = some (⟨20, 0⟩, ["", "", ""]) ∧ outcome.database.Marked ⟨20, 0⟩ 1 1 ∧
      (outcome.database.employeeRecords.lookup 2).map EmployeeRecord.status = some .ready ∧
      (outcome.database.employeeRecords.lookup 3).map EmployeeRecord.status = some .ready := by
  decide

/-- Three valid records are all marked. -/
theorem uploaded_records_sent :
    let records := [exampleRecord 1 "50", exampleRecord 2 "50", exampleRecord 3 "50"]
    ∀ i (hi : i < records.length), (uploadBatchFile (fun _ => .ok "") (fun _ _ => true) (fun i => ⟨20, i⟩) records
      (exampleDatabase records)).database.Marked ⟨20, 0⟩ (i + 1) records[i].record.pk :=
  (uploaded_records_sent_iff (fun _ => .ok "") (fun _ _ => true) (fun i => ⟨20, i⟩)
    [exampleRecord 1 "50", exampleRecord 2 "50", exampleRecord 3 "50"]
    (exampleDatabase [exampleRecord 1 "50", exampleRecord 2 "50", exampleRecord 3 "50"])
    (by decide) (by decide) (by decide) rfl).mpr (by decide)

end Upload

/-! ## The upload run of notifications -/

namespace Updates

instance (s : State) (r : Nat) : Decidable (s.Law r) := inferInstanceAs (Decidable (_ ∨ _))

instance (s : State) (r : Nat) : Decidable (s.Watched r) :=
  inferInstanceAs (Decidable (∃ tracked ∈ s.employeeRecords.lookup r, _))

/-- **Lost date changes.** In every interleaving of an upload run with edits, a date change of a watched employee
record is lost exactly when the run marks its notification after the dates have changed, and no edit changes them
again. -/
theorem date_change_kept_iff (serializer : Notification → Dates → Option String) (s : State) (labels : List Label)
    (r : Nat) {s' : State} (hidle : s.phase = .idle) (hwatched : s.Watched r) (hlaw : s.Law r)
    (hrun : run (State.step serializer) s labels = some s') :
    s'.Law r ↔ Followed (State.step serializer) (MarksStale r) (ChangesDates r) s labels := by
  have hinv : s.Inv := by rw [State.Inv, hidle]; trivial
  refine holds_iff_followed (J := fun s : State => s.Inv ∧ s.Watched r) (P := (State.Law · r)) ?_ ?_ ?_ ?_ ⟨hinv, hwatched⟩ hlaw hrun
  · rintro s label s' ⟨hs, hw⟩ h
    exact ⟨hs.step h, by rw [State.Watched, employeeRecords_step hs h]; exact hw⟩
  · rintro s label s' ⟨hs, _⟩ h hstale
    exact not_law_of_marksStale hs h hstale
  · rintro s label s' ⟨_, hw⟩ h hchange
    exact law_of_changesDates hw h hchange
  · rintro s label s' ⟨hs, _⟩ h hstale hchange
    exact law_iff_of_other hs h hstale hchange

/-- A `PROCESSED` employee record whose dates the ASP has. -/
def exampleState : State where
  approvals := (∅ : Table Dates).insert 1 ⟨100, 829⟩
  employeeRecords := (∅ : Table TrackedRecord).insert 1 ⟨1, .processed⟩
  notifications := .empty
  lastUploaded := (∅ : Table Dates).insert 1 ⟨100, 829⟩
  phase := .idle

/-- A suspension lengthens the approval before the run, and another edit falls between the fetch and the mark. -/
def lostEdit : List Label :=
  [.edit ⟨200, 0⟩ 1 ⟨100, 850⟩, .fetch, .upload ⟨200, 1⟩ true, .edit ⟨200, 2⟩ 1 ⟨100, 900⟩, .mark ⟨200, 3⟩]

/-- The second edit is lost: its upsert finds the `NEW` row that the run then marks. -/
theorem date_change_lost :
    exampleState.phase = .idle ∧ exampleState.Watched 1 ∧ exampleState.Law 1 ∧
      ∃ s', run (State.step fun _ _ => some "") exampleState lostEdit = some s' ∧ s'.phase = .done ∧
        ¬ s'.Law 1 :=
  ⟨rfl, by decide, by decide, _, rfl, by decide, by decide⟩

/-- The edit that follows the mark makes up for the one that the run has missed. -/
theorem date_change_kept_editAfterMark :
    ∃ s', run (State.step fun _ _ => some "") exampleState (lostEdit ++ [.edit ⟨200, 4⟩ 1 ⟨100, 901⟩]) = some s' ∧
      s'.Law 1 :=
  ⟨_, rfl, (date_change_kept_iff (fun _ _ => some "") exampleState
    (lostEdit ++ [.edit ⟨200, 4⟩ 1 ⟨100, 901⟩]) 1 rfl (by decide) (by decide) rfl).mpr (by decide)⟩

end Updates

/-! ## The exchange with the ASP -/

namespace Exchange

/-- The ASP has the dates of the approval of a `PROCESSED` record once all its notifications are `PROCESSED`. -/
def State.Delivered (s : State) : Prop :=
  s.record.status = .processed → (∀ n ∈ s.notifications.rows, n.status = .processed) →
    s.asp.isSome ∧ s.asp = s.dates

instance : DecidablePred State.Delivered := fun _ => inferInstanceAs (Decidable (_ → _ → _))

/-- **Delivery of the dates.** The ASP has the dates in each state of a run in which a record never becomes
`PROCESSED`, as a duplicate or out of the archive, behind the back of the ASP. -/
theorem delivered_of_guard (defaultEndDate : Int → Int) (clock : DateTime) (db : Approvals.Db)
    (jobApplication : JobApplication) (pk : Nat) (labels : List (DateTime × Action))
    (hguard : AllSteps (State.step defaultEndDate) (fun s label => s.Guard label.2)
      (State.start clock db jobApplication pk) labels) :
    AllStates (State.step defaultEndDate) State.Delivered (State.start clock db jobApplication pk) labels :=
  (allStates_of_allSteps (fun _ _ _ hs hg h => State.Inv.step hs hg h)
    (State.Inv.start clock db jobApplication pk) hguard).mono fun _ hs => hs.asp_eq_dates

/-- An approval of two years, without a suspension. -/
def exampleDb : Approvals.Db where
  approvals := (∅ : Table Approvals.Approval).insert 1
    { number := "XXXXX1234567", user := 1, startAt := 100, endAt := 829, createdAt := ⟨90, 0⟩, updatedAt := ⟨90, 0⟩ }
  suspensions := ∅
  prolongations := ∅

def exampleStart : State :=
  State.start ⟨100, 0⟩ exampleDb ⟨.accepted, some 1, some 1, Upload.exampleJobSeeker "50"⟩ 1

/-- Send the record on this day, and read the answer of the ASP. -/
def sendRecord (day : Int) (code : String) : List (DateTime × Action) :=
  [(⟨day, 0⟩, .ready ⟨"", "", "", "", "", "", "", none⟩), (⟨day, 1⟩, .uploadRecord ""), (⟨day, 2⟩, .answer code "" ""),
    (⟨day, 3⟩, .feedbackRecord ⟨.creation, ⟨day, 0⟩, code, "", ""⟩)]

/-- A suspension is there when the record is sent for the first time. The record is disabled and enabled, and sent
once more. -/
def resend (between : List (DateTime × Action)) : List (DateTime × Action) :=
  (⟨200, 0⟩, .period (.suspension (.insert 1 ⟨⟨1, 200, 230⟩, .brokenContract⟩))) :: sendRecord 201 "0000" ++
    [(⟨202, 0⟩, .disable), (⟨202, 1⟩, .enable)] ++ between ++ sendRecord 204 "3436"

/-- The suspension is deleted before the record is sent again: the trigger does not fire on a `NEW` record, and the
approval has no suspension left when the duplicate is processed. -/
theorem not_delivered_deletedSuspension :
    ¬ AllStates (State.step (· + 729)) State.Delivered exampleStart
      (resend [(⟨203, 0⟩, .period (.suspension (.delete 1)))]) := by
  decide

/-- The suspension is shortened instead: the duplicate is followed by a notification. -/
theorem delivered_shortenedSuspension :
    AllStates (State.step (· + 729)) State.Delivered exampleStart
      (resend [(⟨203, 0⟩, .period (.suspension (.update 1 ⟨⟨1, 200, 210⟩, .brokenContract⟩)))] ++
        [(⟨205, 0⟩, .uploadNotification ""), (⟨205, 1⟩, .answer "0000" "" ""),
          (⟨205, 2⟩, .feedbackNotification ⟨.update, ⟨205, 0⟩, "0000", "", ""⟩)]) :=
  delivered_of_guard (· + 729) ⟨100, 0⟩ exampleDb _ 1 _ (by decide)

/-- What `unarchive` makes of an archived record, by the processing code that it kept. -/
structure State.Unarchived (s s' : State) : Prop where
  new : s.record.aspProcessingCode ∈ [none, some ""] → s'.record.status = .new
  processed : s.record.aspProcessingCode ∈ [some "0000", some "3436"] → s'.record.status = .processed
  rejected : ∀ code ∈ s.record.aspProcessingCode, code ≠ "3436" →
    code.toList.take 2 ∈ ["32".toList, "33".toList, "34".toList] → s'.record.status = .rejected
  archived : ∀ code ∈ s.record.aspProcessingCode, code ∉ ["", "0000"] →
    code.toList.take 2 ∉ ["32".toList, "33".toList, "34".toList] → s' = s
  frame : s' = { s with
    record := { s.record with status := s'.record.status, updatedAt := s'.record.updatedAt }
    notifications := s'.notifications }

/-- **Out of the archive.** `unarchive` never raises on an archived record. The code alone decides of the status, and
a code that is no success, no duplicate and no error of the range 32 to 34 leaves the record archived. -/
theorem unarchive_archived (now : DateTime) (s : State) (h : s.record.status = .archived) :
    ∃ s', s.unarchive now = some s' ∧ s.Unarchived s' := by
  refine ⟨_, State.unarchive_of_archived h, ?_⟩
  cases hcode : s.record.aspProcessingCode with
  | none =>
      rw [EmployeeRecord.statusBasedOnAspProcessingCode, hcode]
      constructor <;> simp [hcode]
  | some code =>
      simp only [EmployeeRecord.statusBasedOnAspProcessingCode, hcode]
      by_cases hempty : code = ""
      · rw [if_pos hempty]
        constructor <;> simp [hcode, hempty]
      · rw [if_neg hempty]
        by_cases hprocessed : code = "0000" ∨ code = aspDuplicateErrorCode
        · rw [if_pos hprocessed]
          rcases hprocessed with rfl | rfl
          · constructor <;> simp [hcode]
          · constructor <;> simp [hcode, aspDuplicateErrorCode]
        · rw [if_neg hprocessed]
          obtain ⟨hsuccess, hduplicate⟩ := not_or.mp hprocessed
          rw [aspDuplicateErrorCode] at hduplicate
          by_cases herror : code.toList.take 2 ∈ ["32".toList, "33".toList, "34".toList]
          · rw [if_pos herror]
            constructor
            · simp [hcode, hempty]
            · simp [hcode, hsuccess, hduplicate]
            · exact fun _ _ _ _ => rfl
            · rintro code' hcode' - hnot
              obtain rfl : code = code' := Option.some.inj (hcode.symm.trans hcode')
              exact absurd herror hnot
            · rfl
          · rw [if_neg herror]
            constructor
            · simp [hcode, hempty]
            · simp [hcode, hsuccess, hduplicate]
            · rintro code' hcode' - hmem
              obtain rfl : code = code' := Option.some.inj (hcode.symm.trans hcode')
              exact absurd hmem herror
            · exact fun _ _ _ _ => rfl
            · rfl

/-- The approval of `exampleDb` expires on the day 829. The record is archived on the day 1000, when it cannot be
prolonged any more. -/
def archivedAfter (code : String) : List (DateTime × Action) := sendRecord 201 code ++ [(⟨1000, 0⟩, .archive false)]

theorem unarchive_archived_rejected :
    ∃ s, run (State.step (· + 729)) exampleStart (archivedAfter "3308") = some s ∧ s.record.status = .archived ∧
      ∃ s', s.unarchive ⟨1001, 0⟩ = some s' ∧ s.Unarchived s' :=
  ⟨_, rfl, by decide, unarchive_archived ⟨1001, 0⟩ _ (by decide)⟩

/-- The ASP answers with the code 3100: the record stays archived. -/
theorem archived_after_unarchive :
    ¬ ∀ (clock : DateTime) (db : Approvals.Db) (jobApplication : JobApplication) (pk : Nat)
      (labels : List (DateTime × Action)) (now : DateTime) (s s' : State),
      run (State.step (· + 729)) (State.start clock db jobApplication pk) labels = some s →
      s.record.status = .archived → s.unarchive now = some s' → s'.record.status ≠ .archived := by
  intro hall
  exact hall ⟨100, 0⟩ exampleDb ⟨.accepted, some 1, some 1, Upload.exampleJobSeeker "50"⟩ 1 (archivedAfter "3100")
    ⟨1001, 0⟩ _ _ rfl (by decide) rfl (by decide)

end Exchange

/-! ## Temporary technical numbers -/

/-- A text, as it is typed, for the validator, the form and the constraint. -/
structure NttAgrees (typed : Nir.Text) : Prop where
  stored : (validateNtt typed).isOk → nttConstraint (some (removeSpaces (strip typed)))
  cleaned : ∀ ntt ∈ cleanNtt typed, ntt ≠ [] → ntt = removeSpaces (strip typed) ∧ nttConstraint (some ntt)
  accepted : nttConstraint (some typed) → (validateNtt typed).isOk ∧ cleanNtt typed = some typed

theorem nttAgrees (typed : Nir.Text) : NttAgrees typed where
  stored h := nttRegex_of_validateNtt h
  cleaned _ hntt hne := cleanNtt_spec hntt hne
  accepted h := ⟨validateNtt_of_nttRegex h, cleanNtt_of_nttRegex h⟩

namespace NttState

/-- **One expression for the NTT.** The validator, the form and the constraint agree on every text, and no request
raises in a run that starts without a number in the sessions. -/
theorem ntt_accepted_everywhere {s : NttState} (requests : List NttRequest)
    (hs : ∀ session company jobSeeker, s.session session company jobSeeker = none) :
    (∀ typed, NttAgrees typed) ∧
      AllStates step (fun s => ∀ request, ∃ s', s.handle request = .ok s') s requests := by
  have hvalid : s.SessionsValid := fun session company jobSeeker => by rw [hs]; rfl
  exact ⟨nttAgrees, (allStates_of_step (fun _ _ _ hs h => SessionsValid.step hs h) hvalid).mono
    fun s hs request => (hs.handle request).imp fun _ h => h.1⟩

/-- A number typed with a space and an end of line, then the third step. -/
def typedNtt : List NttRequest :=
  let jobApplication := ⟨1, 1, "123456789".toList, 2⟩
  [.create 0 jobApplication ⟨some .m, [], true, "1 123456789AB\n".toList, true⟩, .createStep3 0 jobApplication true]

def emptyNtt : NttState := ⟨fun _ _ _ => none, fun _ => [], ∅⟩

theorem ntt_accepted_typedNtt :
    (∀ typed, NttAgrees typed) ∧
      AllStates step (fun s => ∀ request, ∃ s', s.handle request = .ok s') emptyNtt typedNtt :=
  ntt_accepted_everywhere typedNtt fun _ _ _ => rfl

example : ((run step emptyNtt typedNtt).bind fun s => s.records.lookup 1) = some ⟨2, some "1123456789AB".toList⟩ := by
  decide +kernel

end NttState

/-! ## The civil status -/

/-- **Civil status.** What is sent of a person without a title, or with the title of the NIR, is coherent exactly when
the civility can be read from the title, or is that of a woman. -/
theorem civil_status_coherent_iff (mapping : CaseMapping) (p : Person) (hvalid : p.Valid mapping)
    (hagrees : p.TitleAgrees) :
    ((EmployeeRecordSerializer.personnePhysique p).Coherent ↔ p.RecordCondition) ∧
      ((EmployeeRecordUpdateNotificationSerializer.getPersonnePhysique p).Coherent ↔ p.NotificationCondition) :=
  ⟨record_coherent_iff hvalid hagrees, notification_coherent_iff hvalid hagrees⟩

/-- A person whose NIR starts with 1, without a title. -/
def untitled : Person := ⟨none, "141062A78200555".toList, none, [], true⟩

theorem untitled_valid : untitled.Valid .ascii := ⟨Or.inr ⟨by decide, by decide +kernel⟩, rfl⟩

theorem civil_status_untitled :
    ((EmployeeRecordSerializer.personnePhysique untitled).Coherent ↔ untitled.RecordCondition) ∧
      ((EmployeeRecordUpdateNotificationSerializer.getPersonnePhysique untitled).Coherent ↔
        untitled.NotificationCondition) :=
  civil_status_coherent_iff .ascii untitled untitled_valid rfl

/-- They are sent as a woman. -/
theorem not_coherent_untitled :
    ¬ ∀ (mapping : CaseMapping) (p : Person), p.Valid mapping → p.TitleAgrees →
      (EmployeeRecordSerializer.personnePhysique p).Coherent ∧
        (EmployeeRecordUpdateNotificationSerializer.getPersonnePhysique p).Coherent := by
  intro hall
  have hcoherent := (hall .ascii untitled untitled_valid rfl).1
  have hman := hcoherent.man.mpr ⟨'1', rfl, by decide⟩
  exact absurd hman (by decide)

/-! ## The list of hires and the creation of records -/

namespace Creation

/-- **The list and the creation.** They agree exactly when no hire loses its place in the list to a record of another
measure: the exclusion compares the SIRET and the number only, the constraint the measure too. -/
theorem listAgrees_iff (db : Db) : db.ListAgrees ↔ db.MeasuresRecorded := by
  constructor
  · intro h siae hsiae hcan siret hsiret a ha hcandidate r hr _ hrsiret hnumber
    by_contra hnot
    obtain ⟨l, hl, hmem⟩ := h.listed siae hsiae hcan siret hsiret a ha hcandidate hnot
    obtain ⟨l', hl', hiff⟩ := Db.eligibleAsEmployeeRecord_eq hcan hsiret
    obtain rfl : l' = l := Except.ok.inj (hl'.symm.trans hl)
    exact ((hiff a).mp hmem).2.2 r hr hrsiret hnumber
  · intro h
    constructor
    · intro siae hsiae l hl a ha clean
      obtain ⟨hcan, hdb, hcandidate⟩ := Db.mem_eligibleAsEmployeeRecord hl ha
      have hcompany := Db.toCompany_eq hsiae hdb hcandidate.2.2.1
      exact Db.creates_of_approval (hcompany ▸ hcan) hcandidate.2.1
    · intro siae hsiae hcan siret hsiret a ha hcandidate hnot
      obtain ⟨l, hl, hiff⟩ := Db.eligibleAsEmployeeRecord_eq hcan hsiret
      refine ⟨l, hl, (hiff a).mpr ⟨ha, hcandidate, fun r hr hrsiret hnumber => ?_⟩⟩
      by_cases hmeasure : r.aspMeasure = SiaeMeasure.fromSiaeKind siae.kind
      · exact hnot ⟨r, hr, hmeasure, hrsiret, hnumber⟩
      · exact hnot (h siae hsiae hcan siret hsiret a ha hcandidate r hr hmeasure hrsiret hnumber)

/-- An ACI and an EI with one SIRET. -/
def companyExample (pk : Nat) (kind : CompanyKind) : Company where
  pk := pk
  kind := kind
  siret := "12345678900011"
  source := .asp
  convention := some ⟨pk, 2455⟩

/-- A hire with the approval 1. -/
def hireExample (pk : Nat) (company : Company) : JobApplication where
  pk := pk
  state := .accepted
  toCompany := company
  jobSeeker := Upload.exampleJobSeeker "50"
  approval := some ⟨1, "999990000001"⟩
  createEmployeeRecord := true
  hiringStartAt := none

/-- The ACI has the record of its hire, the EI has none. -/
def twoMeasures : Db where
  companies := [companyExample 1 .aci, companyExample 2 .ei]
  jobApplications := [hireExample 1 (companyExample 1 .aci), hireExample 2 (companyExample 2 .ei)]
  employeeRecords := [⟨1, "12345678900011", 2455, some .aci, "999990000001"⟩]
  companies_pk := by decide
  toCompany_mem := by decide
  aspMeasure_notNull := by decide
  identifiers_unique := by decide

theorem not_listAgrees_twoMeasures : ¬ twoMeasures.ListAgrees := by
  intro h
  obtain ⟨l, hl, hmem⟩ := h.listed (companyExample 2 .ei) (by decide) (by decide) "12345678900011" rfl
    (hireExample 2 (companyExample 2 .ei)) (by decide) (by decide) (by decide)
  obtain rfl : [] = l := Except.ok.inj hl
  exact List.not_mem_nil hmem

end Creation

/-! ## The feedback files -/

namespace Feedback

/-- A feedback file is handled as a whole or changes nothing, and what it settles no other file changes. Along any run
of the site and of the exchanges, a line changes only the record that was sent there. -/
theorem State.feedback_atomic (remotePath : DateTime → String) (columns : Columns) (s : State)
    (hkeyed : s.tables.Keyed) :
    (∀ d, s.Atomic remotePath columns d) ∧
      (s.tables.Traced → ∀ actions, AllSteps (State.step remotePath columns)
        (fun s a => ∀ d, a = .download d → s.Atomic remotePath columns d ∧ s.ChangesSent remotePath columns d)
        s actions) := by
  refine ⟨downloadFile_atomic hkeyed, fun htraced actions => ?_⟩
  have hsound : Sound s.tables.toDatabase := ⟨hkeyed, htraced⟩
  refine allSteps_of_allSteps (I := fun s => Sound s.tables.toDatabase) (G := fun _ _ => True)
    (fun _ _ _ h _ hstep => h.step hstep) (fun s a _ h _ _ => ?_) hsound (allSteps_of_forall fun _ _ => trivial)
  rintro d -
  exact ⟨downloadFile_atomic h.keyed d, downloadFile_changesSent h.keyed h.traced d⟩

/-- The first two records, as they are sent in one file. -/
def sentTables : Tables where
  toDatabase :=
    (Upload.markSent (fun i => ⟨20, i⟩) ⟨20, 0⟩ 1 [(Upload.exampleRecord 1 "50", ""), (Upload.exampleRecord 2 "50", "")]
      (Upload.exampleDatabase [Upload.exampleRecord 1 "50", Upload.exampleRecord 2 "50"])).1
  details _ := ⟨⟨0, 0⟩, "999990000001", (Upload.exampleRecord 1 "50").jobApplication⟩
  approvals := ⟨∅, ∅, ∅⟩
  notifications := .empty

/-- The file that answers to the line 2. -/
def exampleDownload : Download where
  filename := "RIAE_FS_20210410130000_FichierRetour.json"
  document := .ok (.object [("lignesTelechargement", .array [.object [("typeMouvement", .string "C"),
    ("numLigne", .number "2"), ("codeTraitement", .string "3308"), ("libelleTraitement", .string "Refus")]])])
  clock i := ⟨21, i⟩

def exampleColumns : Columns where
  integer
    | .number "2" => .ok (some 2)
    | _ => .error .value
  char
    | .string text => some text
    | _ => none
  json _ := .ok ""

theorem feedback_atomic_example :
    State.Atomic (fun _ => "RIAE_FS_20210410130000.json") exampleColumns ⟨sentTables, [exampleDownload.filename]⟩
      exampleDownload :=
  (State.feedback_atomic _ exampleColumns ⟨sentTables, [exampleDownload.filename]⟩ (by
    rw [Tables.Keyed, ← Upload.forall_entries (p := fun k r => r.pk = k)]
    decide)).1 exampleDownload

example : (((State.downloadFile (fun _ => "RIAE_FS_20210410130000.json") exampleColumns
    ⟨sentTables, [exampleDownload.filename]⟩ exampleDownload).tables.employeeRecords.lookup 2).map
      EmployeeRecord.status) = some .rejected := by decide +kernel

/-- `download_json_file` removes a file exactly when its turn handles it, which is so when each of its lines can be stored;
the records that are not `SENT` stay as they are. -/
theorem State.downloadJsonFile_handles (remotePath : DateTime → String) (columns : Columns) (s : State)
    (hkeyed : s.tables.Keyed) (hnodup : s.files.Nodup) (document : String → Except FeedbackError Json)
    (clock : String → Nat → DateTime) :
    (∀ before filename after, s.files = before ++ filename :: after →
      let s₁ := s.downloads remotePath columns (before.map (Download.ofFile document clock))
      let d := Download.ofFile document clock filename
      (filename ∉ (s.downloadJsonFile remotePath columns document clock).files ↔
          s₁.Handled remotePath columns (s₁.downloadFile remotePath columns d) d) ∧
        ∀ batch file lines, filenameStart.toList.isPrefixOf filename.toList = true → document filename = .ok batch →
          batchFilenameFromFeedback filename = .ok file → linesOf batch = .ok lines → s₁.tables.Ready →
            (∀ text, columns.char (.string text) = some text) → (∀ raw ∈ lines, Storable columns raw) →
              filename ∉ (s.downloadJsonFile remotePath columns document clock).files) ∧
      ∀ k r, s.tables.employeeRecords.lookup k = some r → r.status ≠ .sent →
        (s.downloadJsonFile remotePath columns document clock).tables.employeeRecords.lookup k = some r := by
  refine ⟨fun before filename after hfiles => ?_, fun k r hr hsent => lookup_downloads hkeyed hr hsent _⟩
  intro s₁ d
  have hdistinct := List.nodup_append.mp (hfiles ▸ hnodup)
  have hrun : s.downloadJsonFile remotePath columns document clock =
      (s₁.downloadFile remotePath columns d).downloads remotePath columns
        (after.map (Download.ofFile document clock)) := by
    rw [State.downloadJsonFile, hfiles, List.map_append, List.map_cons, State.downloads, List.foldl_append]
    rfl
  have hmem : filename ∈ s₁.files := by
    refine (mem_files_downloads fun d' hd' => ?_).mpr (hfiles ▸ List.mem_append_right _ List.mem_cons_self)
    obtain ⟨other, hother, rfl⟩ := List.mem_map.mp hd'
    exact fun heq => hdistinct.2.2 other hother filename List.mem_cons_self heq.symm
  have hiff : filename ∉ (s.downloadJsonFile remotePath columns document clock).files ↔
      s₁.Handled remotePath columns (s₁.downloadFile remotePath columns d) d := by
    rw [hrun]
    refine notMem_files_iff (keyed_downloads hkeyed _) (nodup_files_downloads hnodup _) hmem fun d' hd' => ?_
    obtain ⟨other, hother, rfl⟩ := List.mem_map.mp hd'
    rintro rfl
    exact (List.nodup_cons.mp hdistinct.2.1).1 hother
  exact ⟨hiff, fun batch file lines hname hbatch hfile hlines hready hchar hstorable =>
    hiff.mpr (handled_of_storable hchar hready hname hbatch hfile hlines hstorable)⟩

/-! ### File names -/

/-- A valid file name is found again from that of its feedback when it has no other dot, and a feedback file that is
accepted leads to a file when it is named after one. The names of the files that were sent do. -/
theorem feedback_filenames_iff (strftime : DateTime → List Char)
    (hstrftime : ∀ now, (strftime now).length = 14 ∧ '.' ∉ strftime now) :
    (∀ name, validateAspBatchFilename name = .ok () →
      ((∃ f, feedbackFilename name = .ok f ∧ batchFilenameFromFeedback f = .ok name) ↔ '.' ∉ timestampOf name)) ∧
    (∀ f, filenameStart.toList.isPrefixOf f.toList = true →
      ((∃ name, batchFilenameFromFeedback f = .ok name ∧ feedbackFilename name = .ok f) ↔
        ∃ timestamp, timestamp.length = 14 ∧ '.' ∉ timestamp ∧ f = feedbackPathFormat timestamp)) ∧
    ∀ (db : Upload.Database) file lineNumber pk, db.Marked file lineNumber pk →
      ∃ f, feedbackFilename (remotePathFormat (strftime file)) = .ok f ∧
        filenameStart.toList.isPrefixOf f.toList = true ∧
        batchFilenameFromFeedback f = .ok (remotePathFormat (strftime file)) ∧
        ∃ r ∈ db.employeeRecords.lookup pk, OnLine (fun now => remotePathFormat (strftime now))
          (remotePathFormat (strftime file)) (some lineNumber) r := by
  refine ⟨fun name hvalid => ?_, fun f _ => ?_, fun db file lineNumber pk hmarked => ?_⟩
  · obtain ⟨timestamp, hlength, rfl⟩ := validateAspBatchFilename_eq_ok.1 hvalid
    rw [timestampOf_remotePathFormat hlength]
    constructor
    · rintro ⟨f, hf, -⟩
      obtain ⟨timestamp', hlength', hdot, hname, -⟩ := feedbackFilename_eq_ok.1 hf
      have hsame := congrArg timestampOf hname
      rw [timestampOf_remotePathFormat hlength, timestampOf_remotePathFormat hlength'] at hsame
      rwa [hsame]
    · intro hdot
      exact ⟨_, feedbackFilename_eq_ok.2 ⟨timestamp, hlength, hdot, rfl, rfl⟩,
        batchFilenameFromFeedback_feedbackPathFormat hdot⟩
  · constructor
    · rintro ⟨name, -, hname⟩
      obtain ⟨timestamp, hlength, hdot, -, hf⟩ := feedbackFilename_eq_ok.1 hname
      exact ⟨timestamp, hlength, hdot, hf⟩
    · rintro ⟨timestamp, hlength, hdot, rfl⟩
      exact ⟨_, batchFilenameFromFeedback_feedbackPathFormat hdot,
        feedbackFilename_eq_ok.2 ⟨timestamp, hlength, hdot, rfl, rfl⟩⟩
  · obtain ⟨hlength, hdot⟩ := hstrftime file
    obtain ⟨r, hr, -, hfile, hline⟩ := hmarked
    refine ⟨_, feedbackFilename_eq_ok.2 ⟨_, hlength, hdot, rfl, rfl⟩, ?_,
      batchFilenameFromFeedback_feedbackPathFormat hdot, r, hr, ?_, ?_⟩
    · rw [List.isPrefixOf_iff_prefix, feedbackPathFormat, String.toList_ofList, List.append_assoc, List.append_assoc]
      exact List.prefix_append ..
    · rw [hfile]
      rfl
    · rw [hline]
      rfl

theorem feedback_filenames_midnight : batchFilenameFromFeedback "RIAE_FS_20210410000000_FichierRetour.json" =
    .ok "RIAE_FS_20210410000000.json" := by
  obtain ⟨f, hf, hname⟩ := ((feedback_filenames_iff (fun _ => "20210410000000".toList) fun _ => by decide).1
    "RIAE_FS_20210410000000.json" (by decide)).2 (by decide)
  obtain rfl : "RIAE_FS_20210410000000_FichierRetour.json" = f := Except.ok.inj hf
  exact hname

/-- A dot in the timestamp passes the validation, and the name of the feedback is not found. -/
theorem feedbackFilename_dotted : validateAspBatchFilename "RIAE_FS_2021.410000000.json" = .ok () ∧
    ¬ ∃ f, feedbackFilename "RIAE_FS_2021.410000000.json" = .ok f ∧
      batchFilenameFromFeedback f = .ok "RIAE_FS_2021.410000000.json" := by
  refine ⟨by decide, ?_⟩
  rintro ⟨f, hf, -⟩
  cases hf

end Feedback

end Itou.EmployeeRecords
