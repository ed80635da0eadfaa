import Itou.Insertion.Orientations

/-!
# Nothing is lost between two runs

A change that no run has written yet is due: the next run to start will read it. A run adds at most one entry to the
logs of an orientation, which is right exactly when the orientation was `PENDING`.
-/

namespace Itou.Insertion.Orientations

open Itou.Lib

/-! ## Rows -/

section Rows

variable {row : Orientation} {item : Item}

/-- The row says what DORA says. -/
def Orientation.Applied (row : Orientation) (item : Item) : Prop :=
  row.status = item.status ∧ row.doraStatusUpdatedAt = some item.updatedAt

theorem synced_eq_self (h : item.doraStatus = row ∨ row.Ahead item) : row.synced item = row := by
  unfold Orientation.synced
  split
  · rfl
  · rename_i hne
    rw [if_pos (h.resolve_left hne)]

theorem synced_cases (row : Orientation) (item : Item) :
    row.synced item = row ∧ (item.doraStatus = row ∨ row.Ahead item) ∨ row.synced item = item.doraStatus := by
  by_cases h : item.doraStatus = row ∨ row.Ahead item
  · exact .inl ⟨synced_eq_self h, h⟩
  · rw [not_or] at h
    refine .inr ?_
    rw [Orientation.synced, if_neg h.1, if_neg h.2]

theorem applied_doraStatus (item : Item) : item.doraStatus.Applied item := ⟨rfl, rfl⟩

/-- A row that has been synchronised says what DORA says, or is more recent. -/
theorem synced_applied_or_ahead (row : Orientation) (item : Item) :
    (row.synced item).Applied item ∨ (row.synced item).Ahead item := by
  rcases synced_cases row item with ⟨heq, hdora | hahead⟩ | heq
  · rw [heq, ← hdora]
    exact .inl (applied_doraStatus item)
  · rw [heq]
    exact .inr hahead
  · rw [heq]
    exact .inl (applied_doraStatus item)

theorem synced_doraStatus_or_ahead (row : Orientation) (item : Item) :
    item.doraStatus = row.synced item ∨ (row.synced item).Ahead item := by
  rcases synced_cases row item with ⟨heq, h⟩ | heq
  · rw [heq]
    exact h
  · exact .inl heq.symm

theorem Orientation.Ahead.mono {old : Item} (h : row.Ahead item) (hle : old.updatedAt ≤ item.updatedAt) :
    row.Ahead old := by
  unfold Orientation.Ahead at h ⊢
  omega

end Rows

/-! ## What a run reads -/

section Fetch

variable {s : State} {uid : String} {item : Item}

/-- The watermark is not after an instant when no row is. -/
theorem watermark_le_iff {t : Int} :
    (∀ w ∈ s.watermark, w ≤ t) ↔
      ∀ uid row, s.orientations.lookup uid = some row → ∀ d ∈ row.doraStatusUpdatedAt, d ≤ t := by
  constructor
  · intro h uid row hrow d hd
    have hmem : d ∈ s.orientations.entries.filterMap fun e => e.2.doraStatusUpdatedAt :=
      List.mem_filterMap.mpr ⟨⟨uid, row⟩, AList.mem_lookup_iff.mp hrow, hd⟩
    cases hw : s.watermark with
    | none =>
        rw [State.watermark, List.max?_eq_none_iff] at hw
        rw [hw] at hmem
        cases hmem
    | some w => exact ((List.max?_le_iff hw).mp (h w hw)) d hmem
  · intro h w hw
    refine (List.max?_le_iff hw).mpr fun d hd => ?_
    obtain ⟨e, he, hd⟩ := List.mem_filterMap.mp hd
    exact h e.1 e.2 (AList.mem_lookup_iff.mpr he) d hd

theorem lookup_fetch :
    s.fetch.statuses.lookup uid = some item ↔ s.dora.lookup uid = some item ∧ ∀ w ∈ s.watermark, w ≤ item.updatedAt := by
  rw [← Option.mem_def, AList.mem_lookup_iff, ← Option.mem_def, AList.mem_lookup_iff]
  simp only [State.fetch, State.orientationStatuses, List.mem_filter, Option.all_eq_true, decide_eq_true_eq,
    Option.mem_def]

end Fetch

/-! ## What a run writes -/

section Write

variable {s s' : State} {statuses : AList fun _ : String => Item}

theorem write_eq_some (h : s.write statuses = some s') :
    (∀ uid item, statuses.lookup uid = some item → uid ∈ s.orientations) ∧
      s'.orientations = mapRows s.orientations (State.syncedRow statuses) ∧ s'.dora = s.dora ∧ s'.runs = s.runs ∧
      s'.late = s.late ∧ (∀ uid, uid ∈ s'.overtaken ↔ uid ∈ s.overtaken ∨ ∃ row item,
        s.orientations.lookup uid = some row ∧ statuses.lookup uid = some item ∧ s.overtakes uid row item = true) := by
  unfold State.write at h
  split at h
  · rename_i hall
    cases h
    refine ⟨fun uid item hitem => ?_, rfl, rfl, rfl, rfl, fun uid => ?_⟩
    · have hkey : uid ∈ statuses.keys := AList.lookup_isSome.mp (by rw [hitem]; rfl)
      exact of_decide_eq_true (List.all_eq_true.mp hall uid hkey)
    · rw [List.mem_append]
      refine or_congr Iff.rfl ?_
      simp only [List.mem_map, List.mem_filter, Option.any_eq_true]
      constructor
      · rintro ⟨⟨k, row⟩, ⟨hmem, item, hitem, hover⟩, rfl⟩
        exact ⟨row, item, AList.mem_lookup_iff.mpr hmem, hitem, hover⟩
      · rintro ⟨row, item, hrow, hitem, hover⟩
        exact ⟨⟨uid, row⟩, ⟨AList.mem_lookup_iff.mp hrow, item, hitem, hover⟩, rfl⟩
  · cases h

end Write

/-! ## The invariant -/

namespace State

/-- The status of DORA is still to be written, and no exception explains it. -/
structure Pending (s : State) (uid : String) (item : Item) : Prop where
  dora : s.dora.lookup uid = some item
  onTime : uid ∉ s.late
  kept : uid ∉ s.overtaken
  unsettled : ∀ row, s.orientations.lookup uid = some row → ¬ row.Applied item ∧ ¬ row.Ahead item

/-- No run goes past the item: neither those that have written, nor those under way that have not read it. -/
structure Due (s : State) (uid : String) (item : Item) : Prop where
  written : ∀ uid' row, s.orientations.lookup uid' = some row → ∀ d ∈ row.doraStatusUpdatedAt, d ≤ item.updatedAt
  read : ∀ f ∈ s.runs, f.statuses.lookup uid = some item ∨
    ∀ uid' other, f.statuses.lookup uid' = some other → other.updatedAt ≤ item.updatedAt

structure Inv (s : State) : Prop where
  ordered : ∀ f ∈ s.runs, ∀ uid old item, f.statuses.lookup uid = some old → s.dora.lookup uid = some item →
    uid ∉ s.late → old = item ∨ old.updatedAt ≤ item.updatedAt
  due : ∀ uid item, s.Pending uid item → s.Due uid item
  complete : ∀ f ∈ s.runs, f.latest = true → ∀ uid item, s.Pending uid item → f.statuses.lookup uid = some item

end State

section Steps

variable {s s' : State}

theorem inv_empty : State.empty.Inv where
  ordered _ h := nomatch h
  due _ _ h := nomatch h.dora
  complete _ h := nomatch h

theorem not_isLate {item : Item} (h : s.isLate item = false) :
    (∀ w ∈ s.watermark, w ≤ item.updatedAt) ∧
      ∀ f ∈ s.runs, ∀ uid other, f.statuses.lookup uid = some other → other.updatedAt ≤ item.updatedAt := by
  rw [State.isLate, Bool.or_eq_false_iff] at h
  constructor
  · intro w hw
    have hlt := h.1
    rw [hw, Option.any_some, decide_eq_false_iff_not] at hlt
    exact not_lt.mp hlt
  · intro f hf uid other hother
    have hruns := List.any_eq_false.mp h.2 f hf
    simp only [List.any_eq_true, decide_eq_true_eq, not_exists, not_and] at hruns
    exact not_lt.mp (hruns ⟨uid, other⟩ (AList.mem_lookup_iff.mp hother))

theorem mem_lateAfter {uid uid' : String} {item : Item} (hne : uid' ≠ uid) :
    uid' ∈ (if s.isLate item then uid :: s.late else s.late.filter (· ≠ uid)) ↔ uid' ∈ s.late := by
  split
  · simp [hne]
  · simp [hne]

theorem inv_change (hs : s.Inv) {uid : String} {item : Item} (h : s.step (.change uid item) = some s') : s'.Inv := by
  cases h
  constructor
  · intro f hf uid' old item' hold hitem' hlate
    obtain ⟨g, hg, rfl⟩ := List.mem_map.mp hf
    by_cases huid : uid' = uid
    · subst huid
      rw [AList.lookup_insert, Option.some.injEq] at hitem'
      subst hitem'
      refine .inr ?_
      cases hisLate : s.isLate item with
      | true => exact absurd (by simp [hisLate]) hlate
      | false => exact (not_isLate hisLate).2 g hg uid' old hold
    · rw [AList.lookup_insert_ne huid] at hitem'
      exact hs.ordered g hg uid' old item' hold hitem' (mt (mem_lateAfter huid).mpr hlate)
  · intro uid' item' hpending
    by_cases huid : uid' = uid
    · subst huid
      have hitem := hpending.dora
      rw [AList.lookup_insert, Option.some.injEq] at hitem
      subst hitem
      cases hisLate : s.isLate item with
      | true => exact absurd (by simp [hisLate]) hpending.onTime
      | false =>
          obtain ⟨hwatermark, hruns⟩ := not_isLate hisLate
          refine ⟨watermark_le_iff.mp hwatermark, fun f hf => .inr ?_⟩
          obtain ⟨g, hg, rfl⟩ := List.mem_map.mp hf
          exact hruns g hg
    · have hbefore : s.Pending uid' item' := by
        refine ⟨?_, mt (mem_lateAfter huid).mpr hpending.onTime, fun hmem => hpending.kept ?_, hpending.unsettled⟩
        · rw [← hpending.dora, AList.lookup_insert_ne huid]
        · exact List.mem_filter.mpr ⟨hmem, by simpa using huid⟩
      have hdue := hs.due uid' item' hbefore
      refine ⟨hdue.written, fun f hf => ?_⟩
      obtain ⟨g, hg, rfl⟩ := List.mem_map.mp hf
      exact hdue.read g hg
  · intro f hf hlatest
    obtain ⟨g, hg, rfl⟩ := List.mem_map.mp hf
    cases hlatest

theorem inv_create (hs : s.Inv) {uid : String} {status : Status} {processingDate : Option Int} {now : Int}
    (h : s.step (.create uid status processingDate now) = some s') : s'.Inv := by
  simp only [State.step] at h
  split at h
  · cases h
  · rename_i hnew
    cases h
    have hbefore : ∀ uid' item, State.Pending
        { s with orientations := s.orientations.insert uid ⟨status, processingDate, none, now⟩ } uid' item →
          s.Pending uid' item := by
      intro uid' item hpending
      refine ⟨hpending.dora, hpending.onTime, hpending.kept, fun row hrow => hpending.unsettled row ?_⟩
      have hne : uid' ≠ uid := by
        rintro rfl
        exact hnew (AList.lookup_isSome.mp (by rw [hrow]; rfl))
      exact (AList.lookup_insert_ne hne).trans hrow
    refine ⟨hs.ordered, fun uid' item hpending => ?_, fun f hf hlatest uid' item hpending =>
      hs.complete f hf hlatest uid' item (hbefore uid' item hpending)⟩
    have hdue := hs.due uid' item (hbefore uid' item hpending)
    refine ⟨fun uid'' row hrow d hd => ?_, hdue.read⟩
    by_cases huid : uid'' = uid
    · subst huid
      rw [AList.lookup_insert, Option.some.injEq] at hrow
      subst hrow
      cases hd
    · rw [AList.lookup_insert_ne huid] at hrow
      exact hdue.written uid'' row hrow d hd

theorem inv_fetch (hs : s.Inv) (h : s.step .fetch = some s') : s'.Inv := by
  cases h
  -- What is pending is due, so the new run reads it.
  have hread : ∀ uid item, s.Pending uid item → s.fetch.statuses.lookup uid = some item := fun uid item hpending =>
    lookup_fetch.mpr ⟨hpending.dora, watermark_le_iff.mpr (hs.due uid item hpending).written⟩
  have hbefore : ∀ uid item, State.Pending { s with runs := s.runs ++ [s.fetch] } uid item → s.Pending uid item :=
    fun uid item hpending => ⟨hpending.dora, hpending.onTime, hpending.kept, hpending.unsettled⟩
  constructor
  · intro f hf uid old item hold hitem hlate
    rcases List.mem_append.mp hf with hf | hf
    · exact hs.ordered f hf uid old item hold hitem hlate
    · rw [List.mem_singleton] at hf
      subst hf
      exact .inl (Option.some.inj ((lookup_fetch.mp hold).1.symm.trans hitem))
  · intro uid item hpending
    have hdue := hs.due uid item (hbefore uid item hpending)
    refine ⟨hdue.written, fun f hf => ?_⟩
    rcases List.mem_append.mp hf with hf | hf
    · exact hdue.read f hf
    · rw [List.mem_singleton] at hf
      subst hf
      exact .inl (hread uid item (hbefore uid item hpending))
  · intro f hf hlatest uid item hpending
    rcases List.mem_append.mp hf with hf | hf
    · exact hs.complete f hf hlatest uid item (hbefore uid item hpending)
    · rw [List.mem_singleton] at hf
      subst hf
      exact hread uid item (hbefore uid item hpending)

/-- A run under way that ends, with or without an error, leaves the invariant. -/
theorem inv_of_runs (hs : s.Inv) {runs : List Fetch} (hruns : ∀ f ∈ runs, f ∈ s.runs) : State.Inv { s with runs } := by
  have hbefore : ∀ uid item, State.Pending { s with runs } uid item → s.Pending uid item :=
    fun uid item hpending => ⟨hpending.dora, hpending.onTime, hpending.kept, hpending.unsettled⟩
  refine ⟨fun f hf => hs.ordered f (hruns f hf), fun uid item hpending => ?_, fun f hf hlatest uid item hpending =>
    hs.complete f (hruns f hf) hlatest uid item (hbefore uid item hpending)⟩
  have hdue := hs.due uid item (hbefore uid item hpending)
  exact ⟨hdue.written, fun f hf => hdue.read f (hruns f hf)⟩

/-- What a run leaves pending was pending: a row that says what DORA says, or is more recent, is not written over. -/
theorem pending_of_write (hs : s.Inv) {f : Fetch} (hf : f ∈ s.runs) (h : s.write f.statuses = some s') {uid : String}
    {item : Item} (hpending : s'.Pending uid item) : s.Pending uid item := by
  obtain ⟨-, horientations, hdora, -, hlate, hovertaken⟩ := write_eq_some h
  have hitem : s.dora.lookup uid = some item := hdora ▸ hpending.dora
  have honTime : uid ∉ s.late := hlate ▸ hpending.onTime
  have hkept := mt (hovertaken uid).mpr hpending.kept
  rw [not_or] at hkept
  refine ⟨hitem, honTime, hkept.1, fun row hrow => ?_⟩
  have hafter : s'.orientations.lookup uid = some (State.syncedRow f.statuses uid row) := by
    rw [horientations, lookup_mapRows, hrow, Option.map_some]
  have hunsettled := hpending.unsettled _ hafter
  cases hread : f.statuses.lookup uid with
  | none => simpa only [State.syncedRow, hread, Option.elim] using hunsettled
  | some old =>
      simp only [State.syncedRow, hread, Option.elim] at hunsettled
      have hordered := hs.ordered f hf uid old item hread hitem honTime
      constructor
      · intro happlied
        by_cases hsame : row.synced old = row
        · rw [hsame] at hunsettled
          exact hunsettled.1 happlied
        · by_cases hcurrent : s.dora.lookup uid = some old
          · have heq : old = item := Option.some.inj (hcurrent.symm.trans hitem)
            subst heq
            rcases synced_applied_or_ahead row old with happlied' | hahead
            · exact hunsettled.1 happlied'
            · exact hunsettled.2 hahead
          · refine hkept.2 ⟨row, old, hrow, hread, ?_⟩
            have hle : old.updatedAt ≤ item.updatedAt := by
              rcases hordered with rfl | hle
              · exact absurd hitem hcurrent
              · exact hle
            have hnot : ¬ row.doraStatusUpdatedAt.all (fun t => t < old.updatedAt) = true := by
              rw [happlied.2, Option.all_some, decide_eq_true_eq]
              exact not_lt.mpr hle
            exact decide_eq_true ⟨hsame, hcurrent, hnot⟩
      · intro hahead
        have hold : row.Ahead old := by
          rcases hordered with rfl | hle
          · exact hahead
          · exact hahead.mono hle
        rw [synced_eq_self (.inr hold)] at hunsettled
        exact hunsettled.2 hahead

/-- A run that has read an item writes it, unless the row is more recent. -/
theorem not_pending_of_read {f : Fetch} (h : s.write f.statuses = some s') {uid : String} {item : Item}
    (hread : f.statuses.lookup uid = some item) : ¬ s'.Pending uid item := by
  obtain ⟨hknown, horientations, -⟩ := write_eq_some h
  intro hpending
  obtain ⟨row, hrow⟩ := Option.isSome_iff_exists.mp (AList.lookup_isSome.mpr (hknown uid item hread))
  have hafter : s'.orientations.lookup uid = some (row.synced item) := by
    rw [horientations, lookup_mapRows, hrow, Option.map_some, State.syncedRow, hread]
    rfl
  obtain ⟨happlied, hahead⟩ := hpending.unsettled _ hafter
  exact (synced_applied_or_ahead row item).elim happlied hahead

theorem inv_write (hs : s.Inv) {f : Fetch} (hf : f ∈ s.runs) (h : s.write f.statuses = some s') : s'.Inv := by
  obtain ⟨-, horientations, hdora, hruns, hlate, -⟩ := write_eq_some h
  constructor
  · intro g hg uid old item hold hitem honTime
    exact hs.ordered g (hruns ▸ hg) uid old item hold (hdora ▸ hitem) (hlate ▸ honTime)
  · intro uid item hpending
    have hdue := hs.due uid item (pending_of_write hs hf h hpending)
    refine ⟨fun uid' row' hrow' d hd => ?_, fun g hg => hdue.read g (hruns ▸ hg)⟩
    rw [horientations, lookup_mapRows] at hrow'
    obtain ⟨row, hrow, rfl⟩ := Option.map_eq_some_iff.mp hrow'
    cases hread : f.statuses.lookup uid' with
    | none =>
        simp only [State.syncedRow, hread, Option.elim] at hd
        exact hdue.written uid' row hrow d hd
    | some other =>
        simp only [State.syncedRow, hread, Option.elim] at hd
        rcases synced_cases row other with ⟨heq, -⟩ | heq
        · rw [heq] at hd
          exact hdue.written uid' row hrow d hd
        · rw [heq] at hd
          cases hd
          rcases hdue.read f hf with hitem | hle
          · exact absurd hpending (not_pending_of_read h hitem)
          · exact hle uid' other hread
  · intro g hg hlatest uid item hpending
    exact hs.complete g (hruns ▸ hg) hlatest uid item (pending_of_write hs hf h hpending)

theorem inv_step (hs : s.Inv) {a : Action} (h : s.step a = some s') : s'.Inv := by
  cases a with
  | change uid item => exact inv_change hs h
  | create uid status processingDate now => exact inv_create hs h
  | fetch => exact inv_fetch hs h
  | write n =>
      simp only [State.step] at h
      obtain ⟨f, hf, h⟩ := Option.bind_eq_some_iff.mp h
      cases h
      have hmem := List.mem_of_getElem? hf
      cases hwrite : s.write f.statuses with
      | none => exact inv_of_runs hs fun g hg => List.mem_of_mem_eraseIdx hg
      | some t =>
          have hruns := (write_eq_some hwrite).2.2.2.1
          exact inv_of_runs (inv_write hs hmem hwrite) fun g hg => hruns ▸ List.mem_of_mem_eraseIdx hg
  | abandon n =>
      cases h
      exact inv_of_runs hs fun g hg => List.mem_of_mem_eraseIdx hg

/-- A run that has read the latest statuses settles the two sides. -/
theorem settles_of_inv (hs : s.Inv) (a : Action) : s.Settles a := by
  cases a with
  | write n =>
      intro f hf hlatest s' h uid item row hitem hrow
      have hmem := List.mem_of_getElem? hf
      by_contra hnone
      simp only [not_or] at hnone
      have hpending : s'.Pending uid item := by
        refine ⟨hitem, hnone.2.2.1, hnone.2.2.2, fun row' hrow' => ?_⟩
        cases Option.some.inj (hrow.symm.trans hrow')
        exact ⟨fun happlied => hnone.1 happlied.1, hnone.2.1⟩
      have hread := hs.complete f hmem hlatest uid item (pending_of_write hs hmem h hpending)
      exact not_pending_of_read h hread hpending
  | change _ _ => trivial
  | create _ _ _ _ => trivial
  | fetch => trivial
  | abandon _ => trivial

end Steps

/-! ## A second run -/

/-- A run does not lower the watermark. -/
theorem watermark_le_of_sync {s s' : State} (h : s.sync = some s') {t : Int} (ht : ∀ w ∈ s'.watermark, w ≤ t) :
    ∀ w ∈ s.watermark, w ≤ t := by
  obtain ⟨-, horientations, -⟩ := write_eq_some h
  rw [watermark_le_iff] at ht ⊢
  intro uid row hrow d hd
  have hafter : s'.orientations.lookup uid = some (State.syncedRow s.fetch.statuses uid row) := by
    rw [horientations, lookup_mapRows, hrow, Option.map_some]
  have hle := ht uid _ hafter
  cases hread : s.fetch.statuses.lookup uid with
  | none =>
      simp only [State.syncedRow, hread, Option.elim] at hle
      exact hle d hd
  | some item =>
      simp only [State.syncedRow, hread, Option.elim] at hle
      rcases synced_cases row item with ⟨heq, -⟩ | heq
      · rw [heq] at hle
        exact hle d hd
      · rw [heq] at hle
        exact (watermark_le_iff.mp (lookup_fetch.mp hread).2 uid row hrow d hd).trans (hle _ rfl)

/-- The second run reads nothing that the first has not read. -/
theorem read_of_read_again {s s' : State} (h : s.sync = some s') {uid : String} {item : Item}
    (hread : s'.fetch.statuses.lookup uid = some item) : s.fetch.statuses.lookup uid = some item := by
  obtain ⟨-, -, hdora, -⟩ := write_eq_some h
  obtain ⟨hitem, hw⟩ := lookup_fetch.mp hread
  exact lookup_fetch.mpr ⟨hdora ▸ hitem, watermark_le_of_sync h hw⟩

theorem steady (s : State) : s.Steady := by
  intro s' h
  obtain ⟨hknown, horientations, -⟩ := write_eq_some h
  -- The rows that the second run reads are already as it would write them.
  have hdone : ∀ uid row item, s'.orientations.lookup uid = some row → s'.fetch.statuses.lookup uid = some item →
      item.doraStatus = row ∨ row.Ahead item := by
    intro uid row item hrow hread
    have hread' := read_of_read_again h hread
    rw [horientations, lookup_mapRows] at hrow
    obtain ⟨old, -, rfl⟩ := Option.map_eq_some_iff.mp hrow
    simp only [State.syncedRow, hread', Option.elim]
    exact synced_doraStatus_or_ahead old item
  have hall : (s'.fetch.statuses.keys.all fun uid => uid ∈ s'.orientations) = true := by
    refine List.all_eq_true.mpr fun uid huid => decide_eq_true ?_
    obtain ⟨item, hitem⟩ := Option.isSome_iff_exists.mp (AList.lookup_isSome.mpr huid)
    have hmem := hknown uid item (read_of_read_again h hitem)
    obtain ⟨row, hrow⟩ := Option.isSome_iff_exists.mp (AList.lookup_isSome.mpr hmem)
    refine AList.lookup_isSome.mp ?_
    rw [horientations, lookup_mapRows, hrow]
    rfl
  have hrows : mapRows s'.orientations (State.syncedRow s'.fetch.statuses) = s'.orientations := by
    refine mapRows_eq_self fun uid row hrow => ?_
    cases hread : s'.fetch.statuses.lookup uid with
    | none => simp only [State.syncedRow, hread, Option.elim]
    | some item =>
        simp only [State.syncedRow, hread, Option.elim]
        exact synced_eq_self (hdone uid row item hrow hread)
  have hlogs : (s'.orientations.entries.filterMap fun e =>
      (s'.fetch.statuses.lookup e.1).bind (e.2.log e.1)) = [] := by
    refine List.filterMap_eq_nil_iff.mpr fun e he => ?_
    cases hread : s'.fetch.statuses.lookup e.1 with
    | none => rfl
    | some item =>
        rw [Option.bind_some, Orientation.log, if_pos (hdone e.1 e.2 item (AList.mem_lookup_iff.mpr he) hread)]
  have hovertaken : (s'.orientations.entries.filter fun e =>
      (s'.fetch.statuses.lookup e.1).any (s'.overtakes e.1 e.2)) = [] := by
    refine List.filter_eq_nil_iff.mpr fun e he => ?_
    cases hread : s'.fetch.statuses.lookup e.1 with
    | none => simp
    | some item =>
        have hsame := synced_eq_self (hdone e.1 e.2 item (AList.mem_lookup_iff.mpr he) hread)
        simp [State.overtakes, hsame]
  rw [State.sync, State.write, if_pos hall, hrows, hlogs, hovertaken, List.append_nil, List.map_nil, List.append_nil]

/-! ## The logs of the orientations -/

section Logs

variable {s s' : State} {uid : String} {row : Orientation} {item : Item} {log : TransitionLog}

/-! ## Paths -/

theorem isPath_concat {first last : Status} {logs : List TransitionLog} :
    IsPath first (logs ++ [log]) last ↔ IsPath first logs log.fromState ∧ log.Legal ∧ log.toState = last := by
  induction logs generalizing first with
  | nil =>
      simp only [List.nil_append, IsPath]
      constructor
      · rintro ⟨hlegal, rfl, rfl⟩
        exact ⟨rfl, hlegal, rfl⟩
      · rintro ⟨rfl, hlegal, rfl⟩
        exact ⟨hlegal, rfl, rfl⟩
  | cons x logs ih => simp only [List.cons_append, IsPath, ih, and_assoc]

/-- The end of a path is known from its beginning. -/
theorem IsPath.unique {first last last' : Status} {logs : List TransitionLog} (h : IsPath first logs last)
    (h' : IsPath first logs last') : last = last' := by
  induction logs generalizing first with
  | nil => exact h.symm.trans h'
  | cons x logs ih => exact ih h.2.2 h'.2.2

theorem Status.transition_target {status : Status} {transition : Transition} (h : status.transition = some transition) :
    transition.target = status ∧ transition.source = .pending := by
  cases status <;> cases h <;> exact ⟨rfl, rfl⟩

/-! ## The entry of a run -/

theorem filter_cons_of_orientation (h : log.orientation = uid) (logs : List TransitionLog) :
    (log :: logs).filter (fun log => log.orientation = uid) = log :: logs.filter fun log => log.orientation = uid :=
  List.filter_cons_of_pos (decide_eq_true h)

/-- The logs that a loop on a table writes about one of its keys. -/
theorem filter_filterMap_entries {ρ : Type} (t : AList fun _ : String => ρ) (f : String → ρ → Option TransitionLog)
    (hf : ∀ k r log, f k r = some log → log.orientation = k) :
    (t.entries.filterMap fun e => f e.1 e.2).filter (fun log => log.orientation = uid) =
      ((t.lookup uid).bind (f uid)).toList := by
  obtain ⟨l, hl⟩ := t
  simp only [AList.lookup]
  induction l with
  | nil => rfl
  | cons e l ih =>
      obtain ⟨hnotMem, hnodup⟩ := List.nodupKeys_cons.mp hl
      obtain ⟨k, r⟩ := e
      by_cases hk : k = uid
      · subst hk
        have hrest : List.dlookup k l = none := List.dlookup_eq_none.mpr hnotMem
        have hnil := ih hnodup
        rw [hrest] at hnil
        rw [List.dlookup_cons_eq]
        cases hlog : f k r with
        | none => simp only [List.filterMap_cons, hlog, hnil, Option.bind_some, Option.bind_none]
        | some log =>
            simp only [List.filterMap_cons, hlog, Option.bind_some, Option.toList_some]
            rw [filter_cons_of_orientation (hf k r log hlog), hnil]
            rfl
      · rw [List.dlookup_cons_ne _ _ (Ne.symm hk), ← ih hnodup]
        cases hlog : f k r with
        | none => simp only [List.filterMap_cons, hlog]
        | some log =>
            simp only [List.filterMap_cons, hlog]
            refine List.filter_cons_of_neg fun heq => hk ?_
            exact (hf k r log hlog).symm.trans (of_decide_eq_true heq)

theorem orientation_log (h : row.log uid item = some log) : log.orientation = uid := by
  unfold Orientation.log at h
  split at h
  · cases h
  · obtain ⟨_, _, rfl⟩ := Option.map_eq_some_iff.mp h
    rfl

theorem logsOf_write {statuses : AList fun _ : String => Item} (h : s.write statuses = some s') :
    s'.logsOf uid = s.logsOf uid ++
      ((s.orientations.lookup uid).bind fun row => (statuses.lookup uid).bind (row.log uid)).toList := by
  unfold State.write at h
  split at h
  · cases h
    rw [State.logsOf, List.filter_append, ← State.logsOf]
    congr 1
    refine filter_filterMap_entries s.orientations (fun k row => (statuses.lookup k).bind (row.log k)) ?_
    intro k row log hlog
    obtain ⟨item, _, hlog⟩ := Option.bind_eq_some_iff.mp hlog
    exact orientation_log hlog
  · cases h

/-- What a run writes on one orientation is right exactly when it writes nothing or finds it `PENDING`. -/
theorem isPath_synced_iff {logs : List TransitionLog} (hpath : IsPath .pending logs row.status) :
    IsPath .pending (logs ++ (row.log uid item).toList) (row.synced item).status ↔
      row.status = .pending ∨ item.doraStatus = row ∨ row.Ahead item := by
  by_cases hsame : item.doraStatus = row ∨ row.Ahead item
  · rw [Orientation.log, if_pos hsame, synced_eq_self hsame, Option.toList_none, List.append_nil]
    exact iff_of_true hpath (Or.inr hsame)
  · rw [Orientation.log, if_neg hsame]
    have hsynced : row.synced item = item.doraStatus := by
      rcases synced_cases row item with ⟨_, h⟩ | h
      · exact absurd h hsame
      · exact h
    rw [hsynced, or_iff_left hsame]
    cases htransition : item.status.transition with
    | none =>
        have hpending : item.status = .pending := by
          cases hstatus : item.status <;> rw [hstatus] at htransition <;> first | rfl | cases htransition
        rw [Option.map_none, Option.toList_none, List.append_nil]
        refine ⟨fun h => (hpath.unique h).trans hpending, fun h => ?_⟩
        rw [h] at hpath
        exact hpending.symm ▸ hpath
    | some transition =>
        obtain ⟨htarget, hsource⟩ := Status.transition_target htransition
        rw [Option.map_some, Option.toList_some, isPath_concat]
        constructor
        · rintro ⟨_, ⟨hfrom, _⟩, _⟩
          exact hfrom.trans hsource
        · exact fun h => ⟨hpath, ⟨h.trans hsource.symm, htarget.symm⟩, rfl⟩

/-! ## One step -/

theorem legalLogs_iff : s.LegalLogs ↔
    ∀ uid row, s.orientations.lookup uid = some row → IsPath .pending (s.logsOf uid) row.status :=
  ⟨fun h uid row hrow => h ⟨uid, row⟩ (AList.mem_lookup_iff.mp hrow),
    fun h e he => h e.1 e.2 (AList.mem_lookup_iff.mpr he)⟩

theorem legalLogs_write {statuses : AList fun _ : String => Item} (hs : s.LegalLogs) (h : s.write statuses = some s') :
    s'.LegalLogs ↔ s.UpdatesPending (.sync statuses) := by
  rw [legalLogs_iff] at hs ⊢
  have hrows : ∀ uid, s'.orientations.lookup uid = (s.orientations.lookup uid).map (State.syncedRow statuses uid) :=
    fun uid => by rw [(write_eq_some h).2.1, lookup_mapRows]
  have hrow : ∀ uid row, s.orientations.lookup uid = some row →
      (IsPath .pending (s'.logsOf uid) (State.syncedRow statuses uid row).status ↔
        ∀ item ∈ statuses.lookup uid, row.status = .pending ∨ item.doraStatus = row ∨ row.Ahead item) := by
    intro uid row hrow
    rw [logsOf_write h, hrow, Option.bind_some, State.syncedRow]
    cases statuses.lookup uid with
    | none =>
        rw [Option.bind_none, Option.toList_none, List.append_nil]
        refine iff_of_true (hs uid row hrow) fun item hitem => ?_
        cases hitem
    | some item =>
        rw [Option.bind_some, Option.elim_some, isPath_synced_iff (hs uid row hrow)]
        simp only [Option.mem_def, Option.some.injEq, forall_eq']
  constructor
  · intro hs' e he
    have hlookup : s.orientations.lookup e.1 = some e.2 := AList.mem_lookup_iff.mpr he
    refine (hrow e.1 e.2 hlookup).mp (hs' e.1 _ ?_)
    rw [hrows, hlookup, Option.map_some]
  · intro hpending uid row' hrow'
    rw [hrows, Option.map_eq_some_iff] at hrow'
    obtain ⟨row, hlookup, rfl⟩ := hrow'
    exact (hrow uid row hlookup).mpr (hpending ⟨uid, row⟩ (AList.mem_lookup_iff.mp hlookup))

/-- The engine checks what it logs. -/
theorem legalLogs_take {transition : Transition} {now : Int} (hs : s.LegalLogs)
    (h : s.take uid transition now = some s') : s'.LegalLogs := by
  rw [legalLogs_iff] at hs ⊢
  obtain ⟨row, hrow, h⟩ := Option.bind_eq_some_iff.mp h
  split at h
  · rename_i hsource
    cases h
    intro uid' row' hrow'
    by_cases huid : uid' = uid
    · subst huid
      rw [AList.lookup_insert] at hrow'
      cases hrow'
      have horientation : TransitionLog.orientation ⟨uid', transition, row.status, transition.target, now⟩ = uid' := rfl
      rw [State.logsOf, List.filter_append, filter_cons_of_orientation horientation, List.filter_nil, isPath_concat]
      exact ⟨hs uid' row hrow, ⟨hsource, rfl⟩, rfl⟩
    · rw [AList.lookup_insert_ne huid] at hrow'
      rw [State.logsOf, List.filter_append, List.filter_cons_of_neg, List.filter_nil, List.append_nil]
      · exact hs uid' row' hrow'
      · exact fun heq => huid (of_decide_eq_true heq).symm
  · cases h

theorem legalLogs_step {a : LogAction} (hs : s.LegalLogs) (h : s.logStep a = some s') :
    s'.LegalLogs ↔ s.UpdatesPending a := by
  cases a with
  | sync statuses => exact legalLogs_write hs h
  | take uid transition now => exact iff_of_true (legalLogs_take hs h) trivial

end Logs

end Itou.Insertion.Orientations
