import Itou.EmployeeRecords.Updates

/-!
# What the upload run does to the law of the dates

The law of an employee record is that its last uploaded dates are current or that a `NEW` notification is there.
Only one step breaks it, a mark with dates that are not current any more, and an edit that changes the dates
restores it.
-/

namespace Itou.EmployeeRecords.Updates

open Itou.Lib

/-! ## The invariant -/

/-- What was fetched is still the `NEW` row of its employee record, of which the batch has one at most. -/
structure Pending (t : Notifications) (batch : List Fetched) : Prop where
  isNew : ∀ f ∈ batch, f.notification.status = .new
  newRow : ∀ f ∈ batch, t.NewRow f.notification.pk f.notification.employeeRecord
  nodup : (batch.map fun f => f.notification.employeeRecord).Nodup

/-- The invariant of a run: what is fetched is pending, and what is to be marked was uploaded last. -/
def State.Inv (s : State) : Prop :=
  match s.phase with
  | .fetched batch => Pending s.notifications batch
  | .uploaded _ _ todo => Pending s.notifications (todo.map Prod.fst) ∧
      ∀ f ∈ todo.map Prod.fst, f.dates.isSome ∧ s.lastUploaded.lookup f.notification.employeeRecord = f.dates
  | _ => True

theorem Pending.mono {t t' : Notifications} {batch : List Fetched} (h : Pending t batch)
    (hkeep : ∀ pk r, t.NewRow pk r → t'.NewRow pk r) : Pending t' batch :=
  ⟨h.isNew, fun f hf => hkeep _ _ (h.newRow f hf), h.nodup⟩

/-! ## Fetch -/

theorem chunk_subset {t : Notifications} {n : Notification} (h : n ∈ chunk t) : n ∈ t.rows ∧ n.status = .new := by
  have hmem := List.mem_of_mem_take h
  simpa only [mem_orderBy, List.mem_filter, decide_eq_true_eq] using hmem

theorem nodup_chunk (t : Notifications) : ((chunk t).map Notification.employeeRecord).Nodup := by
  have hperm : (orderBy Notification.updatedAt
      (orderBy Notification.pk (t.rows.filter fun n => n.status = .new))).Perm
      (t.rows.filter fun n => n.status = .new) :=
    (List.perm_insertionSort _ _).trans (List.perm_insertionSort _ _)
  exact (((hperm.map _).nodup_iff).mpr t.uniqueNewEmployeeRecord).sublist ((List.take_sublist _ _).map _)

theorem pending_batch (s : State) : Pending s.notifications s.batch where
  isNew := by
    intro f hf
    obtain ⟨i, hi, rfl⟩ := List.mem_mapIdx.mp hf
    exact (chunk_subset (List.getElem_mem hi)).2
  newRow := by
    intro f hf
    obtain ⟨i, hi, rfl⟩ := List.mem_mapIdx.mp hf
    obtain ⟨hmem, hnew⟩ := chunk_subset (List.getElem_mem hi)
    exact ⟨_, hmem, rfl, hnew, rfl⟩
  nodup := by
    have hmap : (s.batch.map fun f => f.notification.employeeRecord) =
        ((chunk s.notifications).zipIdx.map Prod.fst).map Notification.employeeRecord := by
      rw [State.batch, List.mapIdx_eq_zipIdx_map, List.map_map, List.map_map]
      rfl
    rw [hmap, List.zipIdx_map_fst]
    exact nodup_chunk s.notifications

/-! ## Upload -/

theorem serialize_eq_some {serializer : Notification → Dates → Option String} {batch : List Fetched}
    {lines : List (Fetched × String)} (h : serialize serializer batch = some lines) :
    lines.map Prod.fst = batch ∧ ∀ f ∈ batch, f.dates.isSome := by
  induction batch generalizing lines with
  | nil =>
      cases h
      exact ⟨rfl, List.forall_mem_nil _⟩
  | cons f batch ih =>
      simp only [serialize, List.mapM_cons, Option.bind_eq_bind, Option.bind_eq_some_iff, Option.map_eq_some_iff,
        Option.pure_def, Option.some.injEq] at h
      obtain ⟨line, ⟨dates, hdates, archive, _, rfl⟩, rest, hrest, rfl⟩ := h
      obtain ⟨hfst, hsome⟩ := ih hrest
      refine ⟨by rw [List.map_cons, hfst], ?_⟩
      simp only [List.forall_mem_cons, hdates, Option.isSome_some, true_and]
      exact hsome

theorem recordUploads_cons (f : Fetched) (batch : List Fetched) (t : Table Dates) :
    recordUploads (f :: batch) t = recordUploads batch (recordUploads [f] t) := rfl

theorem lookup_recordUploads_of_ne {batch : List Fetched} {r : Nat}
    (h : ∀ f ∈ batch, f.notification.employeeRecord ≠ r) (t : Table Dates) :
    (recordUploads batch t).lookup r = t.lookup r := by
  induction batch generalizing t with
  | nil => rfl
  | cons f batch ih =>
      rw [List.forall_mem_cons] at h
      rw [recordUploads_cons, ih h.2]
      simp only [recordUploads, List.foldl_cons, List.foldl_nil]
      cases f.dates with
      | none => rfl
      | some dates => exact AList.lookup_insert_ne h.1.symm

theorem lookup_recordUploads {batch : List Fetched} {f : Fetched} (hf : f ∈ batch) (hsome : f.dates.isSome)
    (hnodup : (batch.map fun f => f.notification.employeeRecord).Nodup) (t : Table Dates) :
    (recordUploads batch t).lookup f.notification.employeeRecord = f.dates := by
  induction batch generalizing t with
  | nil => cases hf
  | cons g batch ih =>
      rw [List.map_cons, List.nodup_cons] at hnodup
      rw [recordUploads_cons]
      rcases List.mem_cons.mp hf with rfl | hf
      · have hne : ∀ g ∈ batch, g.notification.employeeRecord ≠ f.notification.employeeRecord := fun g hg heq =>
          hnodup.1 (List.mem_map.mpr ⟨g, hg, heq⟩)
        obtain ⟨dates, hdates⟩ := Option.isSome_iff_exists.mp hsome
        rw [lookup_recordUploads_of_ne hne]
        simp only [recordUploads, List.foldl_cons, List.foldl_nil, hdates]
        exact AList.lookup_insert _
      · exact ih hf hnodup.2 _

/-! ## Edits -/

theorem hasNew_createEmployeeRecordNotification {now : DateTime} {watched : List Nat} {t : Notifications} {r : Nat} :
    (createEmployeeRecordNotification now watched t).HasNew r ↔ t.HasNew r ∨ r ∈ watched := by
  induction watched generalizing t with
  | nil => simp [createEmployeeRecordNotification]
  | cons w watched ih =>
      rw [createEmployeeRecordNotification, List.foldl_cons, ← createEmployeeRecordNotification, ih,
        Notifications.hasNew_upsert, List.mem_cons, or_assoc]

theorem newRow_createEmployeeRecordNotification {now : DateTime} {watched : List Nat} {t : Notifications}
    {pk r : Nat} (h : t.NewRow pk r) : (createEmployeeRecordNotification now watched t).NewRow pk r := by
  induction watched generalizing t with
  | nil => exact h
  | cons w watched ih => exact ih (Notifications.newRow_upsert.mpr (Or.inl h))

theorem mem_watched {s : State} {approval r : Nat} : r ∈ s.watched approval ↔
    ∃ tracked ∈ s.employeeRecords.lookup r, tracked.approval = approval ∧ tracked.status ∈ watchedStatuses := by
  simp only [State.watched, List.mem_map, List.mem_filter, Bool.and_eq_true, decide_eq_true_eq, Sigma.exists,
    exists_and_right, exists_eq_right, AList.mem_lookup_iff]

/-! ## What each step does -/

theorem fetch_eq_some {s s' : State} (h : s.fetch = some s') :
    s' = { s with phase := if s.batch = [] then .done else .fetched s.batch } := by
  unfold State.fetch at h
  split at h
  · cases h; rfl
  · cases h

/-- An upload fails and stops the run, or it sends the dates of the whole batch. -/
theorem upload_cases {s s' : State} {serializer : Notification → Dates → Option String} {now : DateTime}
    {transferred : Bool} (h : s.upload serializer now transferred = some s') :
    s' = { s with phase := .done } ∨ ∃ batch lines, s.phase = .fetched batch ∧
      serialize serializer batch = some lines ∧
      s' = { s with
        lastUploaded := recordUploads batch s.lastUploaded, phase := .uploaded (getRemotePath now) 1 lines } := by
  unfold State.upload at h
  split at h
  · rename_i batch hphase
    split at h
    · cases h; exact Or.inl rfl
    · rename_i lines hlines
      split at h
      · cases h; exact Or.inr ⟨batch, lines, hphase, hlines, rfl⟩
      · cases h; exact Or.inl rfl
  · cases h

/-- A mark finds its line taken and stops the run, or it takes the notification out of the `NEW` ones. -/
theorem mark_cases {s s' : State} {now : DateTime} (hs : s.Inv) (h : s.mark now = some s') :
    ∃ file lineNumber f archive todo, s.phase = .uploaded file lineNumber ((f, archive) :: todo) ∧
      let taken := s.notifications.LineTaken f.notification.pk
        (f.notification.toAspExchangeInformation.setAspBatchInformation file lineNumber archive)
      (taken ∧ s' = { s with phase := .done } ∨
        ¬ taken ∧ ∃ t,
          (∀ r, t.HasNew r ↔ s.notifications.HasNew r ∧ r ≠ f.notification.employeeRecord) ∧
          (∀ pk r, t.NewRow pk r ↔ s.notifications.NewRow pk r ∧ pk ≠ f.notification.pk) ∧
          s' = { s with notifications := t, phase := Phase.next file lineNumber todo }) := by
  unfold State.mark at h
  split at h
  case h_2 => cases h
  case h_1 file lineNumber f archive todo hphase =>
    refine ⟨file, lineNumber, f, archive, todo, hphase, ?_⟩
    simp only [State.Inv, hphase, List.map_cons] at hs
    have hnew : f.notification.status = .new := hs.1.isNew f List.mem_cons_self
    have hrow : s.notifications.NewRow f.notification.pk f.notification.employeeRecord :=
      hs.1.newRow f List.mem_cons_self
    split at h
    · rename_i e he
      cases h
      simp only [bind_eq_error, Notification.waitForAspResponse, Notification.perform, hnew, if_true,
        reduceCtorEq, false_or, Except.ok.injEq, exists_eq_left', Notifications.save] at he
      split at he
      · rename_i htaken
        exact Or.inl ⟨htaken, rfl⟩
      · cases he
    · rename_i t ht
      cases h
      obtain ⟨row, hperform, hsave⟩ := bind_eq_ok.mp ht
      obtain ⟨_, hrow'⟩ := Notification.perform_eq_ok.mp hperform
      have hpk : row.1.pk = f.notification.pk := by rw [hrow']
      have hinfo := congrArg Notification.toAspExchangeInformation hrow'
      refine Or.inr ⟨?_, t, fun r => Notifications.hasNew_save hsave (hpk ▸ hrow), fun pk r => ?_, rfl⟩
      · have hfree := (Notifications.save_eq_ok hsave).1
        rwa [hpk, hinfo] at hfree
      · rw [Notifications.newRow_save hsave, hpk]

/-- An edit sets the dates, and fires the trigger when they have changed. -/
theorem edit_eq_some {s s' : State} {now : DateTime} {approval : Nat} {dates : Dates}
    (h : s.edit now approval dates = some s') : ∃ old, s.approvals.lookup approval = some old ∧
      s' = { s with
        approvals := s.approvals.insert approval dates
        notifications :=
          if old ≠ dates then createEmployeeRecordNotification now (s.watched approval) s.notifications
          else s.notifications } := by
  unfold State.edit at h
  split at h
  · cases h
  · rename_i old hold
    cases h
    exact ⟨old, hold, rfl⟩

/-! ## The invariant is kept -/

theorem State.Inv.step {s s' : State} {serializer : Notification → Dates → Option String} {label : Label}
    (hs : s.Inv) (h : s.step serializer label = some s') : s'.Inv := by
  cases label with
  | fetch =>
      rw [fetch_eq_some h]
      unfold State.Inv
      split
      · rename_i batch hphase
        simp only at hphase
        split at hphase
        · cases hphase
        · cases hphase
          exact pending_batch s
      · rename_i hphase
        simp only at hphase
        split at hphase <;> cases hphase
      · trivial
  | upload now transferred =>
      rcases upload_cases h with rfl | ⟨batch, lines, hphase, hlines, rfl⟩
      · trivial
      · simp only [State.Inv, hphase] at hs
        obtain ⟨hfst, hsome⟩ := serialize_eq_some hlines
        simp only [State.Inv, hfst]
        exact ⟨hs, fun f hf => ⟨hsome f hf, lookup_recordUploads hf (hsome f hf) hs.nodup _⟩⟩
  | mark now =>
      obtain ⟨file, lineNumber, f, archive, todo, hphase, hcases⟩ := mark_cases hs h
      rcases hcases with ⟨_, rfl⟩ | ⟨_, t, _, hnewRow, rfl⟩
      · trivial
      · simp only [State.Inv, hphase, List.map_cons, List.forall_mem_cons] at hs
        obtain ⟨hpending, _, hdates⟩ := hs
        have hnodup := hpending.nodup
        rw [List.map_cons, List.nodup_cons] at hnodup
        have hpending' : Pending t (todo.map Prod.fst) := by
          refine ⟨fun g hg => hpending.isNew g (List.mem_cons_of_mem _ hg), fun g hg => (hnewRow _ _).mpr
            ⟨hpending.newRow g (List.mem_cons_of_mem _ hg), fun heq => ?_⟩, hnodup.2⟩
          -- One key is one row, and one row is one employee record's.
          have hg' := hpending.newRow g (List.mem_cons_of_mem _ hg)
          have hrecord := (heq ▸ hg').employeeRecord_unique (hpending.newRow f List.mem_cons_self)
          exact hnodup.1 (List.mem_map.mpr ⟨g, hg, hrecord⟩)
        unfold Phase.next
        split
        · trivial
        · exact ⟨hpending', hdates⟩
  | edit now approval dates =>
      obtain ⟨old, hold, rfl⟩ := edit_eq_some h
      have hkeep : ∀ pk r, s.notifications.NewRow pk r → Notifications.NewRow
          (if old ≠ dates then createEmployeeRecordNotification now (s.watched approval) s.notifications
            else s.notifications) pk r := by
        intro pk r hrow
        split
        · exact newRow_createEmployeeRecordNotification hrow
        · exact hrow
      unfold State.Inv at hs ⊢
      simp only
      split
      · rename_i hphase
        simp only [hphase] at hs
        exact hs.mono hkeep
      · rename_i hphase
        simp only [hphase] at hs
        exact ⟨hs.1.mono hkeep, hs.2⟩
      · trivial

theorem employeeRecords_step {s s' : State} {serializer : Notification → Dates → Option String} {label : Label}
    (hs : s.Inv) (h : s.step serializer label = some s') : s'.employeeRecords = s.employeeRecords := by
  cases label with
  | fetch => rw [fetch_eq_some h]
  | upload now transferred => rcases upload_cases h with rfl | ⟨_, _, _, _, rfl⟩ <;> rfl
  | mark now =>
      obtain ⟨_, _, _, _, _, _, hcases⟩ := mark_cases hs h
      rcases hcases with ⟨_, rfl⟩ | ⟨_, _, _, _, rfl⟩ <;> rfl
  | edit now approval dates => obtain ⟨_, _, rfl⟩ := edit_eq_some h; rfl

/-! ## The law -/

theorem datesOf_edit {s : State} {approval r : Nat} {dates : Dates} {t : Notifications}
    (h : ∀ tracked ∈ s.employeeRecords.lookup r, tracked.approval ≠ approval) :
    State.datesOf { s with approvals := s.approvals.insert approval dates, notifications := t } r = s.datesOf r := by
  simp only [State.datesOf]
  cases htracked : s.employeeRecords.lookup r with
  | none => rfl
  | some tracked => exact AList.lookup_insert_ne (h tracked htracked)

/-- A mark with stale dates breaks the law. -/
theorem not_law_of_marksStale {s s' : State} {serializer : Notification → Dates → Option String} {label : Label}
    {r : Nat} (hs : s.Inv) (h : s.step serializer label = some s') (hstale : MarksStale r s label) :
    ¬ s'.Law r := by
  cases label with
  | fetch => cases hstale
  | upload now transferred => cases hstale
  | edit now approval dates => cases hstale
  | mark now =>
      obtain ⟨file, lineNumber, f, archive, todo, hphase, hcases⟩ := mark_cases hs h
      simp only [MarksStale, State.nextMark, hphase, Option.mem_def, Option.some.injEq, exists_eq_left'] at hstale
      obtain ⟨rfl, hdates, hfree⟩ := hstale
      rcases hcases with ⟨htaken, _⟩ | ⟨_, t, hhasNew, _, rfl⟩
      · exact absurd htaken hfree
      · simp only [State.Inv, hphase, List.map_cons, List.forall_mem_cons] at hs
        obtain ⟨hsome, hlast⟩ := hs.2.1
        obtain ⟨dates, hf⟩ := Option.isSome_iff_exists.mp hsome
        rintro (hnew | hcurrent)
        · exact ((hhasNew _).mp hnew).2 rfl
        · exact hdates (hf.trans (hcurrent dates (hlast.trans hf)).symm)

/-- An edit that changes the dates restores the law: the trigger inserts a notification or finds one. -/
theorem law_of_changesDates {s s' : State} {serializer : Notification → Dates → Option String} {label : Label}
    {r : Nat} (hwatched : s.Watched r) (h : s.step serializer label = some s') (hchange : ChangesDates r s label) :
    s'.Law r := by
  cases label with
  | fetch => cases hchange
  | upload now transferred => cases hchange
  | mark now => cases hchange
  | edit now approval dates =>
      obtain ⟨old, hold, rfl⟩ := edit_eq_some h
      obtain ⟨⟨tracked, htracked, happroval⟩, hne⟩ := hchange
      have hold' : old ≠ dates := fun heq => hne (heq ▸ hold)
      obtain ⟨tracked', htracked', hstatus⟩ := hwatched
      cases Option.mem_unique htracked htracked'
      refine Or.inl ?_
      simp only [hold', ne_eq, not_false_eq_true, if_true]
      exact hasNew_createEmployeeRecordNotification.mpr
        (Or.inr (mem_watched.mpr ⟨tracked, htracked, happroval, hstatus⟩))

/-- The other steps leave the law as it is. -/
theorem law_iff_of_other {s s' : State} {serializer : Notification → Dates → Option String} {label : Label}
    {r : Nat} (hs : s.Inv) (h : s.step serializer label = some s') (hstale : ¬ MarksStale r s label)
    (hchange : ¬ ChangesDates r s label) : s'.Law r ↔ s.Law r := by
  cases label with
  | fetch => rw [fetch_eq_some h]; exact Iff.rfl
  | upload now transferred =>
      rcases upload_cases h with rfl | ⟨batch, lines, hphase, _, rfl⟩
      · exact Iff.rfl
      · simp only [State.Inv, hphase] at hs
        by_cases hr : ∃ f ∈ batch, f.notification.employeeRecord = r
        · obtain ⟨f, hf, rfl⟩ := hr
          exact iff_of_true (Or.inl (hs.newRow f hf).hasNew) (Or.inl (hs.newRow f hf).hasNew)
        · have hne : ∀ f ∈ batch, f.notification.employeeRecord ≠ r := fun f hf heq => hr ⟨f, hf, heq⟩
          simp only [State.Law, lookup_recordUploads_of_ne hne]
          exact Iff.rfl
  | mark now =>
      obtain ⟨file, lineNumber, f, archive, todo, hphase, hcases⟩ := mark_cases hs h
      rcases hcases with ⟨_, rfl⟩ | ⟨hfree, t, hhasNew, _, rfl⟩
      · exact Iff.rfl
      · by_cases hr : f.notification.employeeRecord = r
        · subst hr
          have hcurrent : f.dates = s.datesOf f.notification.employeeRecord := by
            by_contra hne
            exact hstale ⟨_, by rw [State.nextMark, hphase]; rfl, rfl, hne, hfree⟩
          simp only [State.Inv, hphase, List.map_cons, List.forall_mem_cons] at hs
          have hlast := hs.2.1.2
          have hdates : ∀ dates ∈ s.lastUploaded.lookup f.notification.employeeRecord,
              s.datesOf f.notification.employeeRecord = some dates :=
            fun dates hmem => hcurrent.symm.trans (hlast.symm.trans hmem)
          exact iff_of_true (Or.inr hdates) (Or.inr hdates)
        · simp only [State.Law, hhasNew, ne_eq, Ne.symm hr, not_false_eq_true, and_true]
          exact Iff.rfl
  | edit now approval dates =>
      obtain ⟨old, hold, rfl⟩ := edit_eq_some h
      by_cases hr : ∃ tracked ∈ s.employeeRecords.lookup r, tracked.approval = approval
      · have heq : old = dates := by
          by_contra hne
          exact hchange ⟨hr, by simpa [hold] using hne⟩
        subst heq
        have hlookup : ∀ id, (s.approvals.insert approval old).lookup id = s.approvals.lookup id := fun id => by
          by_cases hid : id = approval
          · rw [hid, AList.lookup_insert, hold]
          · exact AList.lookup_insert_ne hid
        simp only [ne_eq, not_true_eq_false, if_false, State.Law, State.datesOf, hlookup]
      · have hne : ∀ tracked ∈ s.employeeRecords.lookup r, tracked.approval ≠ approval :=
          fun tracked hmem happroval => hr ⟨tracked, hmem, happroval⟩
        have hnotWatched : r ∉ s.watched approval := fun hmem => by
          obtain ⟨tracked, htracked, happroval, _⟩ := mem_watched.mp hmem
          exact hne tracked htracked happroval
        simp only [State.Law, datesOf_edit hne]
        refine or_congr_left ?_
        split
        · rw [hasNew_createEmployeeRecordNotification, or_iff_left hnotWatched]
        · exact Iff.rfl

end Itou.EmployeeRecords.Updates
