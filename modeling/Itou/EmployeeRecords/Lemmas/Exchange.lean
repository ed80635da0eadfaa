import Itou.EmployeeRecords.Exchange

/-!
# What is on its way to the ASP

The invariant of the exchange follows the files: each update line on its way belongs to a `SENT` notification, the
creation line that counts is the one of the record's file, and what the ASP will hold once it has read its files is
what the approval says, unless a notification is still to be sent or has failed.
-/

namespace Itou.EmployeeRecords.Exchange

open Itou.Lib

namespace State

variable (s : State)

/-! ## The invariant -/

/-- The files on their way. -/
def files : List DateTime := s.inbox.map Line.file ++ s.outbox.map Answer.file

/-- A notification waits for the answer on this file. -/
def Waits (file : DateTime) : Prop :=
  ∃ n ∈ s.notifications.rows, n.status = .sent ∧ OfFile file n.toAspExchangeInformation

/-- The files are all different, and those of updates have a notification that waits for them. -/
structure Mail : Prop where
  rowFiles : ∀ n ∈ s.notifications.rows, ∀ file ∈ n.aspBatchFile, file ≤ s.lastUpload
  recordFile : ∀ file ∈ s.record.aspBatchFile, file ≤ s.lastUpload
  boxFiles : ∀ file ∈ s.files, file ≤ s.lastUpload
  nodup : s.files.Nodup
  oneRow : ∀ n ∈ s.notifications.rows, ∀ n' ∈ s.notifications.rows, ∀ file,
    OfFile file n.toAspExchangeInformation → OfFile file n'.toAspExchangeInformation → n.pk = n'.pk
  inboxWaits : ∀ line ∈ s.inbox, line.movement = .update → s.Waits line.file
  outboxWaits : ∀ a ∈ s.outbox, a.movement = .update → s.Waits a.file

/-- The processing codes that make an employee record `PROCESSED`. -/
def processedCodes : List (Option String) := [some aspProcessingSuccessCode, some aspDuplicateErrorCode]

/-- The invariant of the exchange. -/
structure Inv : Prop extends s.Mail where
  /-- If the ASP accepts the creation that the record waits for, it will be up to date. -/
  creationSent : s.record.status = .sent → ∀ before line after, s.inbox = before ++ line :: after →
    line.movement = .creation → OfFile line.file s.record.toAspExchangeInformation →
    s.Covers (after.foldl store (some line.dates))
  creationAccepted : s.record.status = .sent → ∀ a ∈ s.outbox, a.movement = .creation →
    OfFile a.file s.record.toAspExchangeInformation → a.processingCode = aspProcessingSuccessCode →
    s.asp.isSome ∧ s.UpToDate
  creationKnown : s.record.status = .sent → ∀ a ∈ s.outbox, a.movement = .creation →
    OfFile a.file s.record.toAspExchangeInformation → a.processingCode = aspDuplicateErrorCode → s.asp.isSome
  codeKnown : s.record.aspProcessingCode ∈ processedCodes → s.asp.isSome
  processed : s.record.status = .processed → s.asp.isSome ∧ s.UpToDate

end State

/-! ## Steps that leave the files on their way -/

variable {s s' : State}

theorem State.Mail.upsert (hs : s.Mail) (r : Nat) (now : DateTime) :
    State.Mail { s with notifications := s.notifications.upsert r now } := by
  have hfile : ∀ n ∈ (s.notifications.upsert r now).rows, ∀ file,
      OfFile file n.toAspExchangeInformation → ∃ m ∈ s.notifications.rows, n.pk = m.pk ∧
        OfFile file m.toAspExchangeInformation := by
    intro n hn file hof
    rcases Notifications.mem_upsert hn with ⟨m, hm, hpk, _, hinfo⟩ | ⟨_, _, hinfo⟩
    · exact ⟨m, hm, hpk, hinfo ▸ hof⟩
    · rw [hinfo] at hof
      cases hof.1
  have hwaits : ∀ file, s.Waits file →
      State.Waits { s with notifications := s.notifications.upsert r now } file := by
    rintro file ⟨n, hn, hsent, hof⟩
    exact ⟨n, Notifications.mem_upsert_of_mem hn (by rw [hsent]; decide), hsent, hof⟩
  constructor
  case rowFiles =>
    intro n hn file hmem
    rcases Notifications.mem_upsert hn with ⟨m, hm, _, _, hinfo⟩ | ⟨_, _, hinfo⟩
    · exact hs.rowFiles m hm file (hinfo ▸ hmem)
    · rw [hinfo] at hmem
      cases hmem
  case recordFile => exact hs.recordFile
  case boxFiles => exact hs.boxFiles
  case nodup => exact hs.nodup
  case oneRow =>
    intro n hn n' hn' file hof hof'
    obtain ⟨m, hm, hpk, hm'⟩ := hfile n hn file hof
    obtain ⟨m₁, hm₁, hpk₁, hm₁'⟩ := hfile n' hn' file hof'
    rw [hpk, hpk₁]
    exact hs.oneRow m hm m₁ hm₁ file hm' hm₁'
  case inboxWaits => exact fun line hline hmovement => hwaits _ (hs.inboxWaits line hline hmovement)
  case outboxWaits => exact fun a ha hmovement => hwaits _ (hs.outboxWaits a ha hmovement)

theorem State.Pending.upsert {now : DateTime} :
    State.Pending { s with notifications := s.notifications.upsert s.record.pk now } :=
  Or.inl (Notifications.hasNew_upsert.mpr (Or.inr rfl))

/-- The mail stays when the tables, the record's contents or the clock change, but not the record's file. -/
theorem State.Mail.of_record (hs : s.Mail) (hrows : s'.notifications = s.notifications)
    (hfile : s'.record.aspBatchFile = s.record.aspBatchFile) (hinbox : s'.inbox = s.inbox)
    (houtbox : s'.outbox = s.outbox) (hlast : s'.lastUpload = s.lastUpload) : s'.Mail := by
  have hwaits : ∀ file, s.Waits file → s'.Waits file := by
    rintro file ⟨n, hn, hsent, hof⟩
    exact ⟨n, hrows ▸ hn, hsent, hof⟩
  have hfiles : s'.files = s.files := by rw [State.files, State.files, hinbox, houtbox]
  constructor
  case rowFiles => rw [hrows, hlast]; exact hs.rowFiles
  case recordFile => rw [hfile, hlast]; exact hs.recordFile
  case boxFiles => rw [hfiles, hlast]; exact hs.boxFiles
  case nodup => rw [hfiles]; exact hs.nodup
  case oneRow => rw [hrows]; exact hs.oneRow
  case inboxWaits => rw [hinbox]; exact fun line hline hmovement => hwaits _ (hs.inboxWaits line hline hmovement)
  case outboxWaits => rw [houtbox]; exact fun a ha hmovement => hwaits _ (hs.outboxWaits a ha hmovement)

/-- A record that is neither `SENT` nor `PROCESSED` owes nothing. -/
theorem State.Inv.of_idle (hmail : s.Mail) (hcode : s.record.aspProcessingCode ∈ processedCodes → s.asp.isSome)
    (hsent : s.record.status ≠ .sent) (hprocessed : s.record.status ≠ .processed) : s.Inv where
  toMail := hmail
  creationSent h := absurd h hsent
  creationAccepted h := absurd h hsent
  creationKnown h := absurd h hsent
  codeKnown := hcode
  processed h := absurd h hprocessed

/-- A record can become `PROCESSED` when the ASP is up to date. -/
theorem State.Inv.of_processed (hmail : s.Mail) (hstatus : s.record.status = .processed) (hsome : s.asp.isSome)
    (hup : s.UpToDate) : s.Inv where
  toMail := hmail
  creationSent h := by rw [hstatus] at h; cases h
  creationAccepted h := by rw [hstatus] at h; cases h
  creationKnown h := by rw [hstatus] at h; cases h
  codeKnown _ := hsome
  processed _ := ⟨hsome, hup⟩

/-- The record keeps its status, its file and its code, no answer is new, and what was covered stays so. -/
theorem State.Inv.mono (hs : s.Inv) (hmail : s'.Mail) (hinbox : s'.inbox = s.inbox)
    (houtbox : s'.outbox ⊆ s.outbox) (hasp : s'.asp = s.asp) (hstatus : s'.record.status = s.record.status)
    (hinfo : s'.record.toAspExchangeInformation = s.record.toAspExchangeInformation)
    (hcovers : s.record.status ∈ watchedStatuses → ∀ held, s.Covers held → s'.Covers held) : s'.Inv := by
  have hheld : s'.held = s.held := by rw [State.held, State.held, hinbox, hasp]
  constructor
  case toMail => exact hmail
  case creationSent =>
    rw [hstatus, hinbox, hinfo]
    intro h before line after hsplit hmovement hof
    exact hcovers (by rw [h]; decide) _ (hs.creationSent h before line after hsplit hmovement hof)
  case creationAccepted =>
    rw [hstatus, hinfo, hasp, State.UpToDate, hheld]
    intro h a ha hmovement hof hcode
    obtain ⟨hsome, hup⟩ := hs.creationAccepted h a (houtbox ha) hmovement hof hcode
    exact ⟨hsome, hcovers (by rw [h]; decide) _ hup⟩
  case creationKnown =>
    rw [hstatus, hinfo, hasp]
    exact fun h a ha => hs.creationKnown h a (houtbox ha)
  case codeKnown => rw [hinfo, hasp]; exact hs.codeKnown
  case processed =>
    rw [hstatus, hasp, State.UpToDate, hheld]
    intro h
    exact ⟨(hs.processed h).1, hcovers (by rw [h]; decide) _ (hs.processed h).2⟩

/-! ## The approval -/

/-- What the record reads of the approval stays when the dates stay. -/
theorem State.Inv.of_dates (hs : s.Inv) (hrows : s'.notifications = s.notifications) (hinbox : s'.inbox = s.inbox)
    (houtbox : s'.outbox = s.outbox) (hasp : s'.asp = s.asp) (hlast : s'.lastUpload = s.lastUpload)
    (hpk : s'.record.pk = s.record.pk) (hstatus : s'.record.status = s.record.status)
    (hinfo : s'.record.toAspExchangeInformation = s.record.toAspExchangeInformation)
    (hdates : s.record.status ∈ watchedStatuses → s'.dates = s.dates) : s'.Inv := by
  have hmail := hs.toMail.of_record hrows (congrArg AspExchangeInformation.aspBatchFile hinfo) hinbox houtbox hlast
  refine hs.mono hmail hinbox (houtbox ▸ List.Subset.refl _) hasp hstatus hinfo fun hwatched held hcovers => ?_
  rw [State.Covers, State.Pending, hrows, hpk, houtbox, hdates hwatched]
  exact hcovers

/-- The trigger makes up for a change of the dates. -/
theorem State.Inv.withDb (hs : s.Inv) (now : DateTime) (db : Approvals.Db) : (s.withDb now db).Inv := by
  unfold State.withDb
  split
  · exact hs.mono ((hs.toMail.upsert _ _).of_record rfl rfl rfl rfl rfl) rfl (List.Subset.refl _) rfl rfl rfl
      fun _ _ _ => Or.inl (State.Pending.upsert (s := { s with db }))
  · rename_i hsame
    refine hs.of_dates rfl rfl rfl rfl rfl rfl rfl rfl fun hwatched => ?_
    by_contra hdates
    exact hsame ⟨hdates, hwatched⟩

theorem State.Inv.saveApproval {now : DateTime} {change : Approvals.Approval → Approvals.Approval} (hs : s.Inv)
    (h : s.saveApproval now change = some s') : s'.Inv := by
  unfold State.saveApproval at h
  split at h
  · cases h
  · simp only [Option.map_eq_some_iff] at h
    obtain ⟨a, _, rfl⟩ := h
    exact hs.withDb now _

theorem State.Inv.updateStartDate {now : DateTime} {defaultEndDate : Int → Int} {newStartDate : Int} (hs : s.Inv)
    (h : s.updateStartDate now defaultEndDate newStartDate = some s') : s'.Inv := by
  unfold State.updateStartDate at h
  split at h
  · exact hs.saveApproval h
  · cases h

/-! ## Transitions without an exchange -/

/-- The record takes a transition that leads neither to `SENT` nor to `PROCESSED`. -/
theorem State.Inv.of_transition (hs : s.Inv) {now : DateTime} {transition : Transition} {check : Bool}
    {body : Except TransitionError EmployeeRecord} {record : EmployeeRecord}
    (h : s.record.perform now transition check body = .ok record)
    (hbody : ∀ r₁, body = .ok r₁ → r₁.aspBatchFile = s.record.aspBatchFile ∧
      r₁.aspProcessingCode = s.record.aspProcessingCode)
    (hsent : transition.target ≠ .sent) (hprocessed : transition.target ≠ .processed)
    (jobApplication : JobApplication) : State.Inv { s with record, jobApplication } := by
  obtain ⟨hstatus, hfile, hcode⟩ := EmployeeRecord.perform_frame h (p := fun r =>
    r.aspBatchFile = s.record.aspBatchFile ∧ r.aspProcessingCode = s.record.aspProcessingCode) hbody
  exact .of_idle (hs.toMail.of_record rfl hfile rfl rfl rfl) (hcode ▸ hs.codeKnown) (hstatus ▸ hsent)
    (hstatus ▸ hprocessed)

theorem State.Inv.ready {now : DateTime} {address : HexaAddress} (hs : s.Inv)
    (h : s.ready now address = some s') : s'.Inv := by
  simp only [State.ready, Option.map_eq_some_iff, toOption_eq_some] at h
  obtain ⟨record, hready, rfl⟩ := h
  refine hs.of_transition hready (fun r₁ hr₁ => ?_) (by decide) (by decide) _
  obtain ⟨_, _, hr₁⟩ := bind_eq_ok.mp hr₁
  obtain ⟨_, _, hr₁⟩ := bind_eq_ok.mp hr₁
  cases hr₁
  exact ⟨rfl, rfl⟩

theorem State.Inv.archive {now : DateTime} {approvalCanBeProlonged : Bool} (hs : s.Inv)
    (h : s.archive now approvalCanBeProlonged = some s') : s'.Inv := by
  simp only [State.archive, Option.map_eq_some_iff, toOption_eq_some] at h
  obtain ⟨record, harchive, rfl⟩ := h
  refine hs.of_transition harchive (fun r₁ hr₁ => ?_) (by decide) (by decide) _
  cases hr₁
  exact ⟨rfl, rfl⟩

/-- A code that makes the record `PROCESSED` was an answer of an ASP that holds dates. -/
theorem mem_processedCodes {r : EmployeeRecord} (h : r.statusBasedOnAspProcessingCode = some .processed) :
    r.aspProcessingCode ∈ State.processedCodes := by
  unfold EmployeeRecord.statusBasedOnAspProcessingCode at h
  split at h
  · cases h
  · rename_i code hcode
    split at h
    · cases h
    · split at h
      · rename_i hor
        rw [hcode]
        rcases hor with rfl | rfl
        · exact List.mem_cons_self
        · exact List.mem_cons_of_mem _ List.mem_cons_self
      · split at h <;> cases h

/-- The status of a code is the target of one of the transitions of `unarchive`. -/
theorem statusBasedOnAspProcessingCode_mem {record : EmployeeRecord} :
    ∀ status ∈ record.statusBasedOnAspProcessingCode, ∃ t ∈ State.unarchiveTransitions, t.target = status := by
  intro status hstatus
  unfold EmployeeRecord.statusBasedOnAspProcessingCode at hstatus
  split at hstatus
  · cases hstatus
    exact ⟨.unarchiveNew, by decide, rfl⟩
  · split at hstatus
    · cases hstatus
      exact ⟨.unarchiveNew, by decide, rfl⟩
    · split at hstatus
      · cases hstatus
        exact ⟨.unarchiveProcessed, by decide, rfl⟩
      · split at hstatus
        · cases hstatus
          exact ⟨.unarchiveRejected, by decide, rfl⟩
        · cases hstatus

/-- An archived record gets the status of its code, when its code has one. -/
theorem State.unarchive_of_archived {now : DateTime} (h : s.record.status = .archived) :
    s.unarchive now = some (match s.record.statusBasedOnAspProcessingCode with
      | some status => { s with
          record := { s.record with status, updatedAt := now }
          notifications :=
            if s.missedNotification then s.notifications.upsert s.record.pk now else s.notifications }
      | none => s) := by
  have hto : ∀ t : Transition, t.sources = [.archived] → (s.record.unarchiveTo now t).toOption =
      if s.record.statusBasedOnAspProcessingCode = some t.target then
        some { s.record with status := t.target, updatedAt := now } else none := by
    intro t ht
    have hsource : s.record.status ∈ t.sources := by rw [ht, h]; exact List.mem_cons_self
    rw [EmployeeRecord.unarchiveTo, EmployeeRecord.perform, if_neg (not_not_intro hsource)]
    split
    · rename_i hcheck
      rw [if_neg (by simpa using hcheck)]
      rfl
    · rename_i hcheck
      rw [if_pos (by simpa using hcheck)]
      rfl
  have hprocessed := hto .unarchiveProcessed rfl
  have hrejected := hto .unarchiveRejected rfl
  have hnew := hto .unarchiveNew rfl
  unfold State.unarchive
  rw [State.unarchiveTransitions, List.findSome?_cons, List.findSome?_cons, List.findSome?_cons, List.findSome?_nil,
    hprocessed, hrejected, hnew]
  cases hstatus : s.record.statusBasedOnAspProcessingCode with
  | none => exact if_pos h
  | some status =>
      obtain ⟨t, ht, rfl⟩ := statusBasedOnAspProcessingCode_mem status hstatus
      simp only [State.unarchiveTransitions, List.mem_cons, List.not_mem_nil, or_false] at ht
      rcases ht with rfl | rfl | rfl
      · rfl
      · rfl
      · rfl

theorem unarchiveTransitions_spec :
    ∀ t ∈ State.unarchiveTransitions, t.sources = [.archived] ∧ t.target ≠ .sent := by
  decide

theorem State.Inv.unarchive {now : DateTime} (hs : s.Inv)
    (hguard : s.record.status = .archived → s.record.statusBasedOnAspProcessingCode = some .processed →
      s.missedNotification = true ∨ s.UpToDate)
    (h : s.unarchive now = some s') : s'.Inv := by
  unfold State.unarchive at h
  split at h
  case h_2 =>
    split at h
    · cases h; exact hs
    · cases h
  case h_1 record hfind =>
    cases h
    obtain ⟨t, ht, hok⟩ := List.exists_of_findSome?_eq_some hfind
    obtain ⟨hsource, hcheck, r₁, hr₁, rfl⟩ := EmployeeRecord.perform_eq_ok.mp (toOption_eq_some.mp hok)
    cases hr₁
    rw [decide_eq_true_eq] at hcheck
    obtain ⟨hsources, hsent⟩ := unarchiveTransitions_spec t ht
    have harchived : s.record.status = .archived := List.mem_singleton.mp (hsources ▸ hsource)
    have hmail : State.Mail { s with
        record := { s.record with status := t.target, updatedAt := now }
        notifications :=
          if s.missedNotification then s.notifications.upsert s.record.pk now else s.notifications } := by
      split
      · exact (hs.toMail.upsert _ _).of_record rfl rfl rfl rfl rfl
      · exact hs.toMail.of_record rfl rfl rfl rfl rfl
    by_cases hprocessed : t.target = .processed
    · rw [hprocessed] at hcheck
      refine .of_processed hmail hprocessed (hs.codeKnown (mem_processedCodes hcheck)) ?_
      split
      · exact Or.inl State.Pending.upsert
      · rename_i hmissed
        exact (hguard harchived hcheck).resolve_left hmissed
    · exact .of_idle hmail hs.codeKnown hsent hprocessed

end Itou.EmployeeRecords.Exchange
