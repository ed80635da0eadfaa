import Itou.EmployeeRecords.Lemmas.Exchange

/-!
# Uploads, answers and feedback

The steps that put files on their way or take them off it keep the invariant of the exchange, except that a record
which becomes `PROCESSED` as a duplicate needs the guard.
-/

namespace Itou.EmployeeRecords.Exchange

open Itou.Lib

variable {s s' : State} {now : DateTime}

/-! ## Uploads -/

theorem files_send (now : DateTime) (movement : MovementType) (dates : Dates) :
    (s.send now movement dates).files =
      s.inbox.map Line.file ++ getRemotePath now :: s.outbox.map Answer.file := by
  simp only [State.files, State.send, List.map_append, List.map_cons, List.map_nil, List.append_assoc,
    List.singleton_append]

theorem mem_files_send {movement : MovementType} {dates : Dates} {file : DateTime} :
    file ∈ (s.send now movement dates).files ↔ file = getRemotePath now ∨ file ∈ s.files := by
  rw [files_send, List.mem_append, List.mem_cons, or_left_comm, State.files, List.mem_append]

theorem State.Mail.nodup_send {movement : MovementType} {dates : Dates} (hs : s.Mail)
    (hlast : s.lastUpload < getRemotePath now) : (s.send now movement dates).files.Nodup := by
  rw [files_send, List.nodup_middle, ← State.files, List.nodup_cons]
  exact ⟨fun hmem => absurd (hs.boxFiles _ hmem) (not_le.mpr hlast), hs.nodup⟩

/-- A record sent in a new file. -/
theorem State.Mail.send_creation {dates : Dates} {record : EmployeeRecord} (hs : s.Mail)
    (hlast : s.lastUpload < getRemotePath now)
    (hrecord : ∀ file ∈ record.aspBatchFile, file ≤ getRemotePath now) :
    State.Mail { s.send now .creation dates with record } where
  rowFiles n hn file hfile := (hs.rowFiles n hn file hfile).trans hlast.le
  recordFile := hrecord
  boxFiles file hfile := by
    rcases mem_files_send.mp hfile with rfl | hfile
    · exact le_rfl
    · exact (hs.boxFiles file hfile).trans hlast.le
  nodup := hs.nodup_send hlast
  oneRow := hs.oneRow
  inboxWaits line hline hmovement := by
    rcases List.mem_append.mp hline with hline | hline
    · exact hs.inboxWaits line hline hmovement
    · rw [List.mem_singleton.mp hline] at hmovement
      cases hmovement
  outboxWaits := hs.outboxWaits

/-- The prefix of a file on its way, when one was put behind the others. -/
theorem append_eq_append_cons {l before after : List Line} {line new : Line}
    (h : l ++ [new] = before ++ line :: after) :
    (∃ after', after = after' ++ [new] ∧ l = before ++ line :: after') ∨ after = [] ∧ line = new := by
  rcases List.eq_nil_or_concat after with rfl | ⟨after', last, rfl⟩
  · have hlast := List.append_inj_right' h rfl
    exact Or.inr ⟨rfl, (List.cons.inj hlast).1.symm⟩
  · rw [List.concat_eq_append, ← List.cons_append, ← List.append_assoc] at h
    have hlast := List.append_inj' h rfl
    exact Or.inl ⟨after', by rw [List.concat_eq_append, List.cons.inj hlast.2 |>.1], hlast.1⟩

theorem State.Inv.uploadRecord {archive : String} (hs : s.Inv) (h : s.uploadRecord now archive = some s') :
    s'.Inv := by
  simp only [State.uploadRecord, Option.ite_none_right_eq_some, Option.map_eq_some_iff] at h
  obtain ⟨⟨hready, _, hlast⟩, dates, hdates, h⟩ := h
  split at h
  · rename_i record hok
    obtain ⟨_, _, hrecord⟩ := EmployeeRecord.waitForAspResponse_eq_ok.mp hok
    subst h
    have hsent : record.status = .sent := by rw [hrecord]
    have hfile : record.aspBatchFile = some (getRemotePath now) := by rw [hrecord]; rfl
    have hcode : record.aspProcessingCode = none := by rw [hrecord]; rfl
    have hfresh : ∀ file ≤ s.lastUpload, ¬ State.OfFile file record.toAspExchangeInformation := by
      intro file hle hof
      rw [State.OfFile, hfile] at hof
      exact absurd hlast (not_lt.mpr (Option.some.inj hof.1 ▸ hle))
    have hold : ∀ a ∈ s.outbox, ¬ State.OfFile a.file record.toAspExchangeInformation := fun a ha =>
      hfresh _ (hs.boxFiles _ (List.mem_append_right _ (List.mem_map_of_mem ha)))
    constructor
    case toMail =>
      refine hs.toMail.send_creation hlast fun file hmem => ?_
      rw [hfile] at hmem
      exact (Option.some.inj hmem).ge
    case creationSent =>
      intro _ before line after hsplit hmovement hof
      rcases append_eq_append_cons hsplit with ⟨after', _, hinbox⟩ | ⟨rfl, rfl⟩
      · have hmem : line ∈ s.inbox := by rw [hinbox]; simp
        exact absurd hof (hfresh _ (hs.boxFiles _ (List.mem_append_left _ (List.mem_map_of_mem hmem))))
      · exact Or.inr hdates.symm
    case creationAccepted => exact fun _ a ha _ hof => absurd hof (hold a ha)
    case creationKnown => exact fun _ a ha _ hof => absurd hof (hold a ha)
    case codeKnown =>
      intro hmem
      simp only [hcode] at hmem
      cases hmem with
      | tail _ hmem => cases hmem with
        | tail _ hmem => cases hmem
    case processed =>
      intro hprocessed
      simp only [hsent] at hprocessed
      cases hprocessed
  · -- The file is on its way, and the record is still `READY`.
    subst h
    exact .of_idle (hs.toMail.send_creation hlast fun file hmem => (hs.recordFile file hmem).trans hlast.le)
      hs.codeKnown (by rw [State.send, hready]; decide) (by rw [State.send, hready]; decide)

/-- The notification that an upload run marks, and its row. -/
theorem uploadNotification_eq_some {archive : String} (hs : s.Mail)
    (h : s.uploadNotification now archive = some s') :
    ∃ dates n row notifications, s.lastUpload < getRemotePath now ∧ s.dates = some dates ∧
      n ∈ s.notifications.rows ∧ n.status = .new ∧ row.1.pk = n.pk ∧ row.1.status = .sent ∧
      State.OfFile (getRemotePath now) row.1.toAspExchangeInformation ∧
      s.notifications.save row = .ok notifications ∧
      s' = { s.send now .update dates with notifications } := by
  simp only [State.uploadNotification, Option.ite_none_right_eq_some] at h
  obtain ⟨hlast, h⟩ := h
  split at h
  case h_2 => cases h
  case h_1 n dates hfind hdates =>
    have hn : n ∈ s.notifications.rows := List.mem_of_find?_eq_some hfind
    have hnewFor : n.IsNewFor s.record.pk := by simpa using List.find?_some hfind
    have hnew : n.status = .new := hnewFor.1
    split at h
    · rename_i notifications hok
      cases h
      obtain ⟨row, hwait, hsave⟩ := bind_eq_ok.mp hok
      obtain ⟨_, hrow⟩ := Notification.perform_eq_ok.mp hwait
      refine ⟨dates, n, row, notifications, hlast, hdates, hn, hnew, ?_, ?_, ?_, hsave, rfl⟩
      · rw [hrow]
      · rw [hrow]
      · rw [hrow]; exact ⟨rfl, rfl⟩
    · -- The file is new, so no row has its line.
      rename_i e he
      simp only [bind_eq_error, Notification.waitForAspResponse, Notification.perform, hnew, if_true,
        reduceCtorEq, false_or, Except.ok.injEq, exists_eq_left', Notifications.save] at he
      split at he
      · rename_i htaken
        obtain ⟨m, hm, _, _, hfile, _⟩ := htaken
        exact absurd (hs.rowFiles m hm _ hfile) (not_le.mpr hlast)
      · cases he

theorem State.Inv.uploadNotification {archive : String} (hs : s.Inv)
    (h : s.uploadNotification now archive = some s') : s'.Inv := by
  obtain ⟨dates, n, row, notifications, hlast, hdates, hn, hnew, hpk, hsent, hof, hsave, rfl⟩ :=
    uploadNotification_eq_some hs.toMail h
  have hmem : row.1 ∈ notifications.rows := Notifications.mem_save_self hsave hn hpk.symm
  have hwaits : ∀ file, s.Waits file →
      State.Waits { s.send now .update dates with notifications } file := by
    rintro file ⟨m, hm, hmsent, hmof⟩
    refine ⟨m, Notifications.mem_save_of_mem hsave hm fun heq => ?_, hmsent, hmof⟩
    have hmn : m = n := List.inj_on_of_nodup_map s.notifications.pks hm hn (heq.trans hpk)
    rw [hmn, hnew] at hmsent
    cases hmsent
  have hrowFile : ∀ file, State.OfFile file row.1.toAspExchangeInformation → file = getRemotePath now :=
    fun file hfile => Option.some.inj (hfile.1.symm.trans hof.1)
  have hnotFile : ∀ m ∈ s.notifications.rows, ¬ State.OfFile (getRemotePath now) m.toAspExchangeInformation :=
    fun m hm hmof => absurd (hs.rowFiles m hm _ hmof.1) (not_le.mpr hlast)
  have hmail : State.Mail { s.send now .update dates with notifications } := by
    constructor
    case rowFiles =>
      intro m hm file hfile
      rcases Notifications.mem_save hsave hm with rfl | ⟨hm, _⟩
      · rw [hof.1] at hfile
        exact (Option.some.inj hfile).ge
      · exact (hs.rowFiles m hm file hfile).trans hlast.le
    case recordFile => exact fun file hfile => (hs.recordFile file hfile).trans hlast.le
    case boxFiles =>
      intro file hfile
      rcases mem_files_send.mp hfile with rfl | hfile
      · exact le_rfl
      · exact (hs.boxFiles file hfile).trans hlast.le
    case nodup => exact hs.toMail.nodup_send hlast
    case oneRow =>
      intro m hm m' hm' file hmof hmof'
      rcases Notifications.mem_save hsave hm with rfl | ⟨hm, _⟩
      · rcases Notifications.mem_save hsave hm' with rfl | ⟨hm', _⟩
        · rfl
        · exact absurd (hrowFile file hmof ▸ hmof') (hnotFile m' hm')
      · rcases Notifications.mem_save hsave hm' with rfl | ⟨hm', _⟩
        · exact absurd (hrowFile file hmof' ▸ hmof) (hnotFile m hm)
        · exact hs.oneRow m hm m' hm' file hmof hmof'
    case inboxWaits =>
      intro line hline hmovement
      rcases List.mem_append.mp hline with hline | hline
      · exact hwaits _ (hs.inboxWaits line hline hmovement)
      · rw [List.mem_singleton.mp hline]
        exact ⟨row.1, hmem, hsent, hof⟩
    case outboxWaits => exact fun a ha hmovement => hwaits _ (hs.outboxWaits a ha hmovement)
  -- Whatever was on its way, the ASP will hold the dates of the new line.
  have hcovers : ∀ lines held, State.Covers { s.send now .update dates with notifications }
      ((lines ++ [⟨.update, getRemotePath now, dates⟩]).foldl store held) := fun lines held => by
    rw [List.foldl_append]
    exact Or.inr hdates.symm
  constructor
  case toMail => exact hmail
  case creationSent =>
    intro _ before line after hsplit hmovement _
    rcases append_eq_append_cons hsplit with ⟨after', rfl, _⟩ | ⟨_, rfl⟩
    · exact hcovers after' _
    · cases hmovement
  case creationAccepted =>
    exact fun h a ha hmovement hfile hcode =>
      ⟨(hs.creationAccepted h a ha hmovement hfile hcode).1, hcovers s.inbox s.asp⟩
  case creationKnown => exact hs.creationKnown
  case codeKnown => exact hs.codeKnown
  case processed => exact fun h => ⟨(hs.processed h).1, hcovers s.inbox s.asp⟩

/-! ## Answers -/

/-- The state after an answer. -/
def State.answered (s : State) (inbox : List Line) (dates : Dates) (a : Answer) : State :=
  { s with
    inbox
    outbox := s.outbox ++ [a]
    asp := if a.processingCode = aspProcessingSuccessCode then some dates else s.asp }

theorem answer_eq_some {processingCode processingLabel archive : String}
    (h : s.answer processingCode processingLabel archive = some s') : ∃ line inbox a, s.inbox = line :: inbox ∧
      a.movement = line.movement ∧ a.file = line.file ∧ s.CanAnswer line a.processingCode ∧
      s' = s.answered inbox line.dates a := by
  unfold State.answer at h
  split at h
  · cases h
  · rename_i line inbox hinbox
    simp only [Option.ite_none_right_eq_some, Option.some.injEq] at h
    obtain ⟨hcan, rfl⟩ := h
    exact ⟨line, inbox, ⟨line.movement, line.file, processingCode, processingLabel, archive⟩, hinbox, rfl, rfl, hcan,
      rfl⟩

variable {line : Line} {inbox : List Line} {a : Answer}

/-- A line on its way to the ASP is now a line on its way back. -/
theorem State.Mail.answered (hs : s.Mail) (hinbox : s.inbox = line :: inbox) (hmovement : a.movement = line.movement)
    (hfile : a.file = line.file) : (s.answered inbox line.dates a).Mail := by
  have hfiles : (s.answered inbox line.dates a).files.Perm s.files := by
    simp only [State.files, State.answered, List.map_append, List.map_cons, List.map_nil, hinbox, hfile,
      ← List.append_assoc]
    exact List.perm_append_singleton _ _
  constructor
  case rowFiles => exact hs.rowFiles
  case recordFile => exact hs.recordFile
  case boxFiles => exact fun file hmem => hs.boxFiles file (hfiles.mem_iff.mp hmem)
  case nodup => exact hfiles.nodup_iff.mpr hs.nodup
  case oneRow => exact hs.oneRow
  case inboxWaits => exact fun l hl hupdate => hs.inboxWaits l (hinbox ▸ List.mem_cons_of_mem _ hl) hupdate
  case outboxWaits =>
    intro a' ha' hupdate
    rcases List.mem_append.mp ha' with ha' | ha'
    · exact hs.outboxWaits a' ha' hupdate
    · rw [List.mem_singleton.mp ha'] at hupdate ⊢
      rw [hfile]
      exact hs.inboxWaits line (hinbox ▸ List.mem_cons_self) (hmovement ▸ hupdate)

theorem State.Covers.answered {held : Option Dates} {dates : Dates} (h : s.Covers held) :
    (s.answered inbox dates a).Covers held := by
  rcases h with (hnew | hrejected | ⟨a', ha', hrefused⟩) | hdates
  · exact Or.inl (Or.inl hnew)
  · exact Or.inl (Or.inr (Or.inl hrejected))
  · exact Or.inl (Or.inr (Or.inr ⟨a', List.mem_append_left _ ha', hrefused⟩))
  · exact Or.inr hdates

theorem answered_asp_isSome {dates : Dates} (hsome : s.asp.isSome) : (s.answered inbox dates a).asp.isSome := by
  simp only [State.answered]
  split
  · rfl
  · exact hsome

/-- An ASP that holds dates stays up to date: it ignores a creation, and an update that it refuses is pending. -/
theorem State.UpToDate.answered (hinbox : s.inbox = line :: inbox) (hmovement : a.movement = line.movement)
    (hcan : s.CanAnswer line a.processingCode) (hsome : s.asp.isSome) (h : s.UpToDate) :
    (s.answered inbox line.dates a).UpToDate := by
  by_cases hrefused : a.movement = .update ∧ a.processingCode ≠ aspProcessingSuccessCode
  · exact Or.inl (Or.inr (Or.inr ⟨a, List.mem_append_right _ List.mem_cons_self, hrefused⟩))
  · have hheld : (s.answered inbox line.dates a).held = s.held := by
      rw [State.held, State.held, hinbox, List.foldl_cons, store]
      cases hline : line.movement with
      | creation =>
          have hcode : a.processingCode = aspDuplicateErrorCode := (hcan hline).mpr hsome
          obtain ⟨dates, hdates⟩ := Option.isSome_iff_exists.mp hsome
          simp only [State.answered, hcode, hdates, show aspDuplicateErrorCode ≠ aspProcessingSuccessCode by decide,
            if_false, Option.getD_some]
      | update =>
          have hcode : a.processingCode = aspProcessingSuccessCode := by
            by_contra hne
            exact hrefused ⟨hmovement.trans hline, hne⟩
          simp only [State.answered, hcode, if_true]
    rw [State.UpToDate, hheld]
    exact State.Covers.answered h

theorem State.Inv.answer {processingCode processingLabel archive : String} (hs : s.Inv)
    (h : s.answer processingCode processingLabel archive = some s') : s'.Inv := by
  obtain ⟨line, inbox, a, hinbox, hmovement, hfile, hcan, rfl⟩ := answer_eq_some h
  constructor
  case toMail => exact hs.toMail.answered hinbox hmovement hfile
  case creationSent =>
    intro hsent before l after hsplit hcreation hof
    refine State.Covers.answered (hs.creationSent hsent (line :: before) l after ?_ hcreation hof)
    rw [hinbox, List.cons_append]
    exact congrArg _ hsplit
  case creationAccepted =>
    intro hsent a' ha' hcreation hof hcode
    rcases List.mem_append.mp ha' with ha' | ha'
    · obtain ⟨hsome, hup⟩ := hs.creationAccepted hsent a' ha' hcreation hof hcode
      exact ⟨answered_asp_isSome hsome, hup.answered hinbox hmovement hcan hsome⟩
    · -- The creation that the record waits for: the ASP holds its dates now.
      rw [List.mem_singleton.mp ha'] at hcreation hof hcode
      have hcovers := hs.creationSent hsent [] line inbox hinbox (hmovement ▸ hcreation) (hfile ▸ hof)
      have hasp : (s.answered inbox line.dates a).asp = some line.dates := if_pos hcode
      refine ⟨by rw [hasp]; rfl, ?_⟩
      rw [State.UpToDate, State.held, hasp]
      exact hcovers.answered
  case creationKnown =>
    intro hsent a' ha' hcreation hof hcode
    rcases List.mem_append.mp ha' with ha' | ha'
    · exact answered_asp_isSome (hs.creationKnown hsent a' ha' hcreation hof hcode)
    · rw [List.mem_singleton.mp ha'] at hcreation hcode
      exact answered_asp_isSome ((hcan (hmovement ▸ hcreation)).mp hcode)
  case codeKnown => exact fun hcode => answered_asp_isSome (hs.codeKnown hcode)
  case processed =>
    intro hprocessed
    obtain ⟨hsome, hup⟩ := hs.processed hprocessed
    exact ⟨answered_asp_isSome hsome, hup.answered hinbox hmovement hcan hsome⟩

/-! ## Feedback -/

/-- The state after a feedback file has been read. -/
def State.read (s : State) (a : Answer) : State := { s with outbox := s.outbox.erase a }

/-- The files that stay are not the one that is read. -/
theorem file_ne_of_mem_read (hs : s.Mail) (ha : a ∈ s.outbox) :
    (∀ line ∈ s.inbox, line.file ≠ a.file) ∧ ∀ a' ∈ s.outbox.erase a, a'.file ≠ a.file := by
  have hnodup := hs.nodup
  rw [State.files, List.nodup_append] at hnodup
  refine ⟨fun line hline => hnodup.2.2 _ (List.mem_map_of_mem hline) _ (List.mem_map_of_mem ha), fun a' ha' heq => ?_⟩
  have hne : a' ≠ a := fun h => by
    rw [h] at ha'
    exact (hnodup.2.1.of_map _).not_mem_erase ha'
  exact hne (List.inj_on_of_nodup_map hnodup.2.1 (List.mem_of_mem_erase ha') ha heq)

theorem files_read_sublist (a : Answer) : (s.read a).files.Sublist s.files :=
  List.Sublist.append (List.Sublist.refl _) (List.erase_sublist.map _)

theorem State.Mail.read (hs : s.Mail) (a : Answer) : (s.read a).Mail where
  rowFiles := hs.rowFiles
  recordFile := hs.recordFile
  boxFiles file hfile := hs.boxFiles file ((files_read_sublist a).subset hfile)
  nodup := hs.nodup.sublist (files_read_sublist a)
  oneRow := hs.oneRow
  inboxWaits := hs.inboxWaits
  outboxWaits a' ha' := hs.outboxWaits a' (List.mem_of_mem_erase ha')

/-- Reading an answer that is no refused update leaves what is pending. -/
theorem State.Covers.read {held : Option Dates}
    (ha : ¬ (a.movement = .update ∧ a.processingCode ≠ aspProcessingSuccessCode)) (h : s.Covers held) :
    (s.read a).Covers held := by
  rcases h with (hnew | hrejected | ⟨a', ha', hrefused⟩) | hdates
  · exact Or.inl (Or.inl hnew)
  · exact Or.inl (Or.inr (Or.inl hrejected))
  · have hne : a' ≠ a := fun heq => ha (heq ▸ hrefused)
    exact Or.inl (Or.inr (Or.inr ⟨a', (List.mem_erase_of_ne hne).mpr ha', hrefused⟩))
  · exact Or.inr hdates

/-- A feedback file that changes nothing but the mailbox. -/
theorem State.Inv.read (hs : s.Inv) (ha : ¬ (a.movement = .update ∧ a.processingCode ≠ aspProcessingSuccessCode)) :
    (s.read a).Inv :=
  hs.mono (hs.toMail.read a) rfl List.erase_subset rfl rfl rfl fun _ _ h => h.read ha

theorem State.Inv.feedbackRecord (hs : s.Inv)
    (hguard : State.OfFile a.file s.record.toAspExchangeInformation → s.record.status = .sent →
      a.processingCode = aspDuplicateErrorCode → s.hasPeriods = true ∨ s.UpToDate)
    (h : s.feedbackRecord now a = some s') : s'.Inv := by
  simp only [State.feedbackRecord, Option.ite_none_right_eq_some] at h
  obtain ⟨⟨ha, hmovement⟩, h⟩ := h
  have hnotUpdate : ¬ (a.movement = .update ∧ a.processingCode ≠ aspProcessingSuccessCode) := fun hupdate => by
    rw [hmovement] at hupdate
    cases hupdate.1
  split at h
  · cases h
    exact hs.read hnotUpdate
  · rename_i hfound
    rw [not_or, not_not, not_not] at hfound
    obtain ⟨hof, hsent⟩ := hfound
    have hmail : ∀ record : EmployeeRecord, record.aspBatchFile = s.record.aspBatchFile →
        State.Mail { s.read a with record } := fun record hfile =>
      (hs.toMail.read a).of_record rfl hfile rfl rfl rfl
    have hup : ∀ record : EmployeeRecord, record.pk = s.record.pk → s.UpToDate →
        State.UpToDate { s.read a with record } := fun record hpk hup => by
      have hread := State.Covers.read hnotUpdate hup
      rw [State.Covers, State.Pending, show (s.read a).record.pk = record.pk from hpk.symm] at hread
      exact hread
    split at h
    · rename_i hcode
      simp only [Option.map_eq_some_iff, toOption_eq_some] at h
      obtain ⟨record, hprocess, rfl⟩ := h
      obtain ⟨hstatus, hfile, hpk⟩ := EmployeeRecord.process_frame hprocess
      obtain ⟨hsome, huptodate⟩ := hs.creationAccepted hsent a ha hmovement hof hcode
      exact .of_processed (hmail record hfile) hstatus hsome (hup record hpk huptodate)
    · rename_i hnotSuccess
      split at h
      · rename_i hcode
        simp only [Option.map_eq_some_iff, toOption_eq_some] at h
        obtain ⟨record, hprocess, rfl⟩ := h
        obtain ⟨hstatus, hfile, hpk⟩ := EmployeeRecord.process_frame hprocess
        have hsome := hs.creationKnown hsent a ha hmovement hof hcode
        split
        · refine .of_processed ((hmail record hfile).upsert s.record.pk now) hstatus hsome ?_
          exact Or.inl (Or.inl (Notifications.hasNew_upsert.mpr (Or.inr hpk)))
        · rename_i hperiods
          exact .of_processed (hmail record hfile) hstatus hsome
            (hup record hpk ((hguard hof hsent hcode).resolve_left hperiods))
      · rename_i hnotDuplicate
        simp only [Option.map_eq_some_iff, toOption_eq_some] at h
        obtain ⟨record, hreject, rfl⟩ := h
        obtain ⟨hstatus, hfile, hcode⟩ := EmployeeRecord.reject_frame hreject
        refine .of_idle (hmail record hfile) (fun hmem => ?_) (by rw [hstatus]; decide) (by rw [hstatus]; decide)
        -- The code that is stored is neither the success nor the duplicate.
        simp only [hcode, State.processedCodes, List.mem_cons, Option.some.injEq, List.not_mem_nil, or_false] at hmem
        exact (hmem.elim hnotSuccess hnotDuplicate).elim

/-- The notification that waits for the feedback, and its row. -/
theorem feedbackNotification_eq_some (hs : s.Mail) (h : s.feedbackNotification now a = some s') :
    ∃ n row notifications, a ∈ s.outbox ∧ a.movement = .update ∧ n ∈ s.notifications.rows ∧ n.status = .sent ∧
      State.OfFile a.file n.toAspExchangeInformation ∧ row.1.pk = n.pk ∧
      row.1.aspBatchFile = n.aspBatchFile ∧ row.1.aspBatchLineNumber = n.aspBatchLineNumber ∧
      (a.processingCode ≠ aspProcessingSuccessCode → row.1.status = .rejected) ∧
      s.notifications.save row = .ok notifications ∧ s' = { s.read a with notifications } := by
  simp only [State.feedbackNotification, Option.ite_none_right_eq_some] at h
  obtain ⟨⟨ha, hmovement⟩, h⟩ := h
  obtain ⟨m, hm, hmsent, hmof⟩ := hs.outboxWaits a ha hmovement
  split at h
  · rename_i hnone
    exact absurd hmof (by simpa using List.find?_eq_none.mp hnone m hm)
  · rename_i n hfind
    have hn : n ∈ s.notifications.rows := List.mem_of_find?_eq_some hfind
    have hof : State.OfFile a.file n.toAspExchangeInformation := by simpa using List.find?_some hfind
    have hnm : n = m := List.inj_on_of_nodup_map s.notifications.pks hn hm (hs.oneRow n hn m hm a.file hof hmof)
    have hsent : n.status = .sent := hnm ▸ hmsent
    split at h
    · rename_i hnot
      exact absurd hsent hnot
    · simp only [Option.map_eq_some_iff, toOption_eq_some, bind_eq_ok] at h
      obtain ⟨notifications, ⟨row, hrow, hsave⟩, rfl⟩ := h
      refine ⟨n, row, notifications, ha, hmovement, hn, hsent, hof, ?_⟩
      split at hrow
      · rename_i hcode
        obtain ⟨_, hrow⟩ := Notification.perform_eq_ok.mp hrow
        rw [hrow]
        exact ⟨rfl, rfl, rfl, fun hne => absurd hcode hne, hsave, rfl⟩
      · obtain ⟨_, hrow⟩ := Notification.perform_eq_ok.mp hrow
        rw [hrow]
        exact ⟨rfl, rfl, rfl, fun _ => rfl, hsave, rfl⟩

theorem State.Inv.feedbackNotification (hs : s.Inv) (h : s.feedbackNotification now a = some s') : s'.Inv := by
  obtain ⟨n, row, notifications, ha, hmovement, hn, hsent, hof, hpk, hfile, hline, hrejected, hsave, rfl⟩ :=
    feedbackNotification_eq_some hs.toMail h
  have hsame : ∀ m ∈ s.notifications.rows, m.pk = row.1.pk → m = n := fun m hm heq =>
    List.inj_on_of_nodup_map s.notifications.pks hm hn (heq.trans hpk)
  obtain ⟨hinboxFile, houtboxFile⟩ := file_ne_of_mem_read hs.toMail ha
  have hwaits : ∀ file ≠ a.file, s.Waits file → State.Waits { s.read a with notifications } file := by
    rintro file hne ⟨m, hm, hmsent, hmof⟩
    refine ⟨m, Notifications.mem_save_of_mem hsave hm fun heq => ?_, hmsent, hmof⟩
    rw [hsame m hm heq] at hmof
    exact hne (Option.some.inj (hmof.1.symm.trans hof.1))
  have hrow : ∀ m ∈ notifications.rows, ∃ m' ∈ s.notifications.rows, m.pk = m'.pk ∧
      m.aspBatchFile = m'.aspBatchFile ∧ m.aspBatchLineNumber = m'.aspBatchLineNumber := by
    intro m hm
    rcases Notifications.mem_save hsave hm with rfl | ⟨hm, _⟩
    · exact ⟨n, hn, hpk, hfile, hline⟩
    · exact ⟨m, hm, rfl, rfl, rfl⟩
  have hmail : State.Mail { s.read a with notifications } := by
    constructor
    case rowFiles =>
      intro m hm file hmem
      obtain ⟨m', hm', _, hfile', _⟩ := hrow m hm
      exact hs.rowFiles m' hm' file (hfile' ▸ hmem)
    case recordFile => exact hs.recordFile
    case boxFiles => exact (hs.toMail.read a).boxFiles
    case nodup => exact (hs.toMail.read a).nodup
    case oneRow =>
      intro m hm m₁ hm₁ file hmof hmof₁
      obtain ⟨m', hm', hpk', hfile', hline'⟩ := hrow m hm
      obtain ⟨m₁', hm₁', hpk₁', hfile₁', hline₁'⟩ := hrow m₁ hm₁
      rw [State.OfFile, hfile', hline'] at hmof
      rw [State.OfFile, hfile₁', hline₁'] at hmof₁
      rw [hpk', hpk₁']
      exact hs.oneRow m' hm' m₁' hm₁' file hmof hmof₁
    case inboxWaits =>
      exact fun line hmem hupdate => hwaits _ (hinboxFile line hmem) (hs.inboxWaits line hmem hupdate)
    case outboxWaits =>
      exact fun a' ha' hupdate =>
        hwaits _ (houtboxFile a' ha') (hs.outboxWaits a' (List.mem_of_mem_erase ha') hupdate)
  -- The notification was `SENT`, so it is none of those that are pending.
  have hother : ∀ m ∈ s.notifications.rows, m.status ≠ .sent → m ∈ notifications.rows := fun m hm hstatus =>
    Notifications.mem_save_of_mem hsave hm fun heq => hstatus (hsame m hm heq ▸ hsent)
  have hcovers : ∀ held, s.Covers held → State.Covers { s.read a with notifications } held := by
    intro held hheld
    by_cases hrefused : a.processingCode ≠ aspProcessingSuccessCode
    · exact Or.inl (Or.inr (Or.inl ⟨row.1, Notifications.mem_save_self hsave hn hpk.symm, hrejected hrefused⟩))
    · rcases State.Covers.read (fun hupdate => hrefused hupdate.2) hheld with (hnew | hfailed | hanswer) | hdates
      · obtain ⟨m, hm, hmnew⟩ := hnew
        exact Or.inl (Or.inl ⟨m, hother m hm (by rw [hmnew.1]; decide), hmnew⟩)
      · obtain ⟨m, hm, hmrejected⟩ := hfailed
        exact Or.inl (Or.inr (Or.inl ⟨m, hother m hm (by rw [hmrejected]; decide), hmrejected⟩))
      · exact Or.inl (Or.inr (Or.inr hanswer))
      · exact Or.inr hdates
  exact hs.mono hmail rfl List.erase_subset rfl rfl rfl fun _ => hcovers

/-! ## Steps -/

theorem State.Inv.start (clock : DateTime) (db : Approvals.Db) (jobApplication : JobApplication) (pk : Nat) :
    (State.start clock db jobApplication pk).Inv := by
  refine .of_idle ⟨List.forall_mem_nil _, ?_, List.forall_mem_nil _, List.nodup_nil, List.forall_mem_nil _,
    List.forall_mem_nil _, List.forall_mem_nil _⟩ (fun h => ?_) ?_ ?_
  · rintro file hfile
    cases hfile
  · simp [State.start, State.processedCodes, AspExchangeInformation.empty] at h
  · exact Status.noConfusion
  · exact Status.noConfusion

theorem State.Inv.act {defaultEndDate : Int → Int} {action : Action} (hs : s.Inv) (hguard : s.Guard action)
    (h : s.act defaultEndDate now action = some s') : s'.Inv := by
  cases action with
  | period statement =>
      obtain ⟨db, _, rfl⟩ := Option.map_eq_some_iff.mp h
      exact hs.withDb now db
  | updateStartDate newStartDate => exact hs.updateStartDate h
  | saveApproval => exact hs.saveApproval h
  | changeJobApplication jobApplication =>
      simp only [State.act, Option.ite_none_right_eq_some, Option.some.injEq] at h
      obtain ⟨happroval, rfl⟩ := h
      exact hs.of_dates rfl rfl rfl rfl rfl rfl rfl rfl fun _ => by
        rw [State.dates, State.dates, State.approval, State.approval, happroval]
  | saveRecord =>
      cases h
      exact hs.of_dates rfl rfl rfl rfl rfl rfl rfl rfl fun _ => rfl
  | ready address => exact hs.ready h
  | disable =>
      simp only [State.act, Option.map_eq_some_iff, toOption_eq_some] at h
      obtain ⟨record, hdisable, rfl⟩ := h
      refine hs.of_transition hdisable (fun r₁ hr₁ => ?_) (by decide) (by decide) _
      cases hr₁
      exact ⟨rfl, rfl⟩
  | enable =>
      simp only [State.act, Option.map_eq_some_iff, toOption_eq_some] at h
      obtain ⟨record, henable, rfl⟩ := h
      refine hs.of_transition henable (fun r₁ hr₁ => ?_) (by decide) (by decide) _
      obtain ⟨_, _, rfl⟩ := map_eq_ok.mp hr₁
      exact ⟨rfl, rfl⟩
  | archive approvalCanBeProlonged => exact hs.archive h
  | unarchive => exact hs.unarchive hguard h
  | uploadRecord archive => exact hs.uploadRecord h
  | uploadNotification archive => exact hs.uploadNotification h
  | answer processingCode processingLabel archive => exact hs.answer h
  | feedbackRecord a => exact hs.feedbackRecord hguard h
  | feedbackNotification a => exact hs.feedbackNotification h

theorem State.Inv.step {defaultEndDate : Int → Int} {label : DateTime × Action} (hs : s.Inv)
    (hguard : s.Guard label.2) (h : s.step defaultEndDate label = some s') : s'.Inv := by
  simp only [State.step, Option.ite_none_right_eq_some] at h
  have hclock : State.Inv { s with clock := label.1 } :=
    hs.of_dates rfl rfl rfl rfl rfl rfl rfl rfl fun _ => rfl
  refine hclock.act ?_ h.2
  cases hlabel : label.2 <;> rw [hlabel] at hguard <;> exact hguard

/-! ## What the invariant is for -/

/-- The ASP ignores creations once it holds dates. -/
theorem foldl_store_creations {lines : List Line} {dates : Dates}
    (h : ∀ line ∈ lines, line.movement = .creation) : lines.foldl store (some dates) = some dates := by
  induction lines with
  | nil => rfl
  | cons line lines ih =>
      rw [List.forall_mem_cons] at h
      rw [List.foldl_cons, store, h.1]
      exact ih h.2

/-- A `PROCESSED` record whose notifications are all `PROCESSED` has its dates at the ASP. -/
theorem State.Inv.asp_eq_dates (hs : s.Inv) (hprocessed : s.record.status = .processed)
    (hrows : ∀ n ∈ s.notifications.rows, n.status = .processed) : s.asp.isSome ∧ s.asp = s.dates := by
  obtain ⟨hsome, hup⟩ := hs.processed hprocessed
  have hnotWaits : ∀ file, ¬ s.Waits file := by
    rintro file ⟨n, hn, hsent, _⟩
    rw [hrows n hn] at hsent
    cases hsent
  refine ⟨hsome, ?_⟩
  rcases hup with (⟨n, hn, hnew, _⟩ | ⟨n, hn, hrejected⟩ | ⟨a, ha, hupdate, _⟩) | hheld
  · rw [hrows n hn] at hnew; cases hnew
  · rw [hrows n hn] at hrejected; cases hrejected
  · exact absurd (hs.outboxWaits a ha hupdate) (hnotWaits _)
  · have hcreations : ∀ line ∈ s.inbox, line.movement = .creation := fun line hline => by
      cases hmovement : line.movement with
      | creation => rfl
      | update => exact absurd (hs.inboxWaits line hline hmovement) (hnotWaits _)
    obtain ⟨dates, hdates⟩ := Option.isSome_iff_exists.mp hsome
    rw [State.held, hdates, foldl_store_creations hcreations] at hheld
    rw [hdates, hheld]

end Itou.EmployeeRecords.Exchange
