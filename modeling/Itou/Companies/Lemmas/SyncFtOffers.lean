import Itou.Companies.SyncFtOffers
import Itou.Lib.Outcomes
import Itou.Lib.Queries
import Mathlib.Data.List.Nodup
import Mathlib.Data.List.Range
import Mathlib.Data.List.ReduceOption

/-!
# When the rows mirror the offers

What a run of `sync_ft_offers` leaves, row by row, and when the rows are those of the offers that are converted.
-/

namespace Itou.Companies.SyncFtOffers

open Itou.Lib

variable {env : Env} {now : Int} {locked : Nat → Bool} {offers : List RawOffer} {jobs : List Job}
  {rows : List JobDescription} {r s : JobDescription} {job : Job} {key : Option String} {peSiae : Nat}

/-! ## Offers -/

theorem ids_setItem (offers : List RawOffer) (offer : RawOffer) : (setItem offers offer).map RawOffer.id =
    if offers.any fun o => o.id = offer.id then offers.map RawOffer.id else offers.map RawOffer.id ++ [offer.id] := by
  unfold setItem
  split
  · rw [List.map_map]
    refine List.map_congr_left fun o _ => ?_
    by_cases ho : o.id = offer.id
    · simp only [Function.comp_apply, ho, if_true]
    · simp only [Function.comp_apply, ho, if_false]
  · rw [List.map_append, List.map_singleton]

theorem nodup_setItem {offers : List RawOffer} (offer : RawOffer) (h : (offers.map RawOffer.id).Nodup) :
    ((setItem offers offer).map RawOffer.id).Nodup := by
  rw [ids_setItem]
  split
  · exact h
  · rename_i hnew
    rw [← List.concat_eq_append, List.nodup_concat]
    refine ⟨fun hmem => hnew ?_, h⟩
    obtain ⟨o, ho, hid⟩ := List.mem_map.1 hmem
    exact List.any_eq_true.2 ⟨o, ho, decide_eq_true hid⟩

/-- An offer that is in both lists is there once. -/
theorem nodup_rawOffers (rawPecOffers rawEaOffers : List RawOffer) :
    ((rawOffers rawPecOffers rawEaOffers).map RawOffer.id).Nodup := by
  have hfold : ∀ (l offers : List RawOffer), (offers.map RawOffer.id).Nodup →
      ((l.foldl setItem offers).map RawOffer.id).Nodup := by
    intro l
    induction l with
    | nil => exact fun _ h => h
    | cons offer l ih => exact fun offers h => ih _ (nodup_setItem offer h)
  exact hfold _ _ List.nodup_nil

theorem sourceId_of_job {offer : RawOffer} (h : peOfferToJobDescription env offer = some (some job)) :
    job.sourceId = offer.id := by
  simp only [peOfferToJobDescription, Option.bind_eq_bind, Option.bind_eq_some_iff] at h
  obtain ⟨_, _, _, _, _, _, appellation?, _, h⟩ := h
  split at h
  · cases h
  · simp only [Option.bind_eq_some_iff] at h
    obtain ⟨_, _, hasPostalCode, _, h⟩ := h
    split at h
    · cases h
    · simp only [Option.bind_eq_some_iff] at h
      obtain ⟨_, _, sourceUrl, _, h⟩ := h
      split at h
      · cases h
      · simp only [Option.bind_eq_some_iff] at h
        obtain ⟨city?, _, h⟩ := h
        split at h
        · cases h
        · simp only [Option.bind_eq_some_iff, Option.pure_def, Option.some.injEq] at h
          obtain ⟨_, _, _, _, _, _, rfl⟩ := h
          rfl

/-- The jobs have the identifiers of their offers. -/
theorem sublist_of_jobsOf (h : jobsOf env offers = some jobs) :
    (jobs.map Job.sourceId).Sublist (offers.map RawOffer.id) := by
  induction offers generalizing jobs with
  | nil =>
      cases h
      exact List.Sublist.refl _
  | cons offer offers ih =>
      simp only [jobsOf, List.mapM_cons, Option.bind_eq_bind, Option.map_eq_some_iff, Option.bind_eq_some_iff,
        Option.pure_def, Option.some.injEq] at h
      obtain ⟨_, ⟨job?, hjob, rest, hrest, rfl⟩, rfl⟩ := h
      have hrest' : jobsOf env offers = some rest.reduceOption := by
        rw [jobsOf, hrest]
        rfl
      have hsub := ih hrest'
      cases job? with
      | none =>
          rw [List.reduceOption_cons_of_none]
          exact hsub.cons _
      | some job =>
          rw [List.reduceOption_cons_of_some, List.map_cons, List.map_cons, sourceId_of_job hjob]
          exact hsub.cons_cons _

/-! ## The rows that are seen -/

theorem dbObj_eq_some (h : dbObj env locked rows key = some r) :
    r ∈ rows ∧ isSeen env locked r = true ∧ r.sourceId = key := by
  have hr := List.find?_some h
  simp only [Bool.and_eq_true, decide_eq_true_eq] at hr
  exact ⟨List.mem_reverse.1 (List.mem_of_find?_eq_some h), hr⟩

theorem dbObj_eq_none : dbObj env locked rows key = none ↔
    ∀ r ∈ rows, isSeen env locked r = true → r.sourceId ≠ key := by
  simp only [dbObj, List.find?_eq_none, List.mem_reverse, Bool.and_eq_true, decide_eq_true_eq, not_and, ne_eq]

theorem mem_removedKeys : key ∈ removedKeys env locked offers rows ↔
    (∃ r ∈ rows, isSeen env locked r = true ∧ r.sourceId = key) ∧ ∀ o ∈ offers, some o.id ≠ key := by
  simp only [removedKeys, List.mem_filter, List.mem_map, Bool.not_eq_true', List.any_eq_false, decide_eq_true_eq,
    and_assoc, ne_eq]

theorem isPeApi_of_isSeen (h : isSeen env locked r = true) : r.isPeApi = true := by
  simp only [isSeen, isInManager, Bool.and_eq_true] at h
  exact h.1.1

/-! ## The rows that are written -/

theorem updateRow_cases (updated : List (Nat × Columns × Int)) (r : JobDescription) :
    (updateRow updated r = r ∧ ∀ u ∈ updated, u.1 ≠ r.pk) ∨
      ∃ columns updatedAt, (r.pk, columns, updatedAt) ∈ updated ∧ updateRow updated r = edited r columns updatedAt := by
  unfold updateRow
  cases h : updated.find? fun u => u.1 = r.pk with
  | none =>
      refine Or.inl ⟨rfl, fun u hu => ?_⟩
      simpa using List.find?_eq_none.1 h u hu
  | some u =>
      obtain ⟨pk, columns, updatedAt⟩ := u
      have hpk := List.find?_some h
      simp only [decide_eq_true_eq] at hpk
      subst hpk
      exact Or.inr ⟨columns, updatedAt, List.mem_of_find?_eq_some h, rfl⟩

section UpdateRow

variable (updated : List (Nat × Columns × Int)) (r : JobDescription)

@[simp] theorem updateRow_pk : (updateRow updated r).pk = r.pk := by
  rcases updateRow_cases updated r with ⟨h, -⟩ | ⟨_, _, -, h⟩ <;> rw [h]
  rfl

@[simp] theorem updateRow_company : (updateRow updated r).company = r.company := by
  rcases updateRow_cases updated r with ⟨h, -⟩ | ⟨_, _, -, h⟩ <;> rw [h]
  rfl

@[simp] theorem updateRow_sourceId : (updateRow updated r).sourceId = r.sourceId := by
  rcases updateRow_cases updated r with ⟨h, -⟩ | ⟨_, _, -, h⟩ <;> rw [h]
  rfl

@[simp] theorem updateRow_sourceKind : (updateRow updated r).sourceKind = r.sourceKind := by
  rcases updateRow_cases updated r with ⟨h, -⟩ | ⟨_, _, -, h⟩ <;> rw [h]
  rfl

@[simp] theorem updateRow_isPeApi : (updateRow updated r).isPeApi = r.isPeApi := by
  simp only [JobDescription.isPeApi, updateRow_sourceKind]

@[simp] theorem updateRow_isInManager : isInManager env (updateRow updated r) = isInManager env r := by
  simp only [isInManager, updateRow_isPeApi, updateRow_company]

@[simp] theorem updateRow_sourceKey : sourceKey (updateRow updated r) = sourceKey r := by
  simp only [sourceKey, updateRow_sourceKind, updateRow_sourceId]

end UpdateRow

theorem lt_freshPk (h : r ∈ rows) : r.pk < freshPk rows := by
  induction rows with
  | nil => exact absurd h List.not_mem_nil
  | cons s rows ih =>
      rw [freshPk, List.foldr_cons]
      rcases List.mem_cons.1 h with rfl | h
      · exact Nat.le_max_left ..
      · exact Nat.lt_of_lt_of_le (ih h) (Nat.le_max_right ..)

theorem mem_newRows {pk : Nat} {l : List Job} (h : r ∈ newRows peSiae now pk l) :
    pk ≤ r.pk ∧ ∃ job ∈ l, r = newRow peSiae now r.pk job := by
  induction l generalizing pk with
  | nil => exact absurd h List.not_mem_nil
  | cons job l ih =>
      rcases List.mem_cons.1 h with rfl | h
      · exact ⟨Nat.le_refl _, job, List.mem_cons_self, rfl⟩
      · obtain ⟨hpk, job', hjob', hr⟩ := ih h
        exact ⟨Nat.le_of_succ_le hpk, job', List.mem_cons_of_mem _ hjob', hr⟩

theorem exists_mem_newRows (pk : Nat) {l : List Job} (h : job ∈ l) :
    ∃ pk', pk ≤ pk' ∧ newRow peSiae now pk' job ∈ newRows peSiae now pk l := by
  induction l generalizing pk with
  | nil => exact absurd h List.not_mem_nil
  | cons job' l ih =>
      rcases List.mem_cons.1 h with rfl | h
      · exact ⟨pk, Nat.le_refl _, List.mem_cons_self⟩
      · obtain ⟨pk', hpk', hmem⟩ := ih (pk + 1) h
        exact ⟨pk', Nat.le_of_succ_le hpk', List.mem_cons_of_mem _ hmem⟩

theorem newRows_pk (pk : Nat) (l : List Job) :
    (newRows peSiae now pk l).map JobDescription.pk = List.range' pk l.length := by
  induction l generalizing pk with
  | nil => rfl
  | cons job l ih => rw [newRows, List.map_cons, ih, List.length_cons, List.range'_succ]; rfl

theorem newRows_sourceKey_sublist (pk : Nat) (l : List Job) :
    ((newRows peSiae now pk l).filterMap sourceKey).Sublist (l.map fun job => (JobSource.peApi, job.sourceId)) := by
  induction l generalizing pk with
  | nil => exact List.Sublist.refl _
  | cons job l ih =>
      rw [newRows, List.map_cons]
      cases hkey : sourceKey (newRow peSiae now pk job) with
      | none =>
          rw [List.filterMap_cons_none hkey]
          exact (ih (pk + 1)).cons _
      | some k =>
          rw [List.filterMap_cons_some hkey]
          have hk : k = (JobSource.peApi, job.sourceId) := by
            simp only [sourceKey, newRow] at hkey
            split at hkey
            · cases hkey
            · exact (Option.some.inj hkey).symm
          rw [hk]
          exact (ih (pk + 1)).cons_cons _

/-! ## A run -/

/-- The jobs that `bulk_create` inserts. -/
def added (env : Env) (locked : Nat → Bool) (rows : List JobDescription) (jobs : List Job) : List Job :=
  jobs.filter fun job => (dbObj env locked rows (some job.sourceId)).isNone

/-- The rows after `bulk_create`. -/
def created (env : Env) (now : Int) (locked : Nat → Bool) (rows : List JobDescription) (peSiae : Nat)
    (jobs : List Job) : List JobDescription :=
  rows ++ newRows peSiae now (freshPk rows) (added env locked rows jobs)

/-- The jobs that `bulk_update` writes, each with the row that it finds. -/
def found (env : Env) (locked : Nat → Bool) (rows : List JobDescription) (jobs : List Job) :
    List (JobDescription × Job) :=
  jobs.filterMap fun job => (dbObj env locked rows (some job.sourceId)).map fun r => (r, job)

/-- What `bulk_update` writes. -/
def written (u : JobDescription × Job) : Option (Nat × Columns × Int) :=
  u.2.updatedAt.map fun updatedAt => (u.1.pk, u.2.columns, updatedAt)

/-- The row is deleted. -/
def isRemoved (env : Env) (removed : List (Option String)) (r : JobDescription) : Bool :=
  isInManager env r && r.sourceId.isSome && removed.any fun key => key = r.sourceId

/-- The rows that a run leaves. -/
def left (env : Env) (now : Int) (locked : Nat → Bool) (offers : List RawOffer) (rows : List JobDescription)
    (peSiae : Nat) (jobs : List Job) (updated : List (Nat × Columns × Int)) : List JobDescription :=
  ((created env now locked rows peSiae jobs).map (updateRow updated)).filter fun r =>
    !isRemoved env (removedKeys env locked offers rows) r

/-- A run ends. -/
structure Ends (env : Env) (now : Int) (locked : Nat → Bool) (offers : List RawOffer) (rows : List JobDescription)
    (peSiae : Nat) (jobs : List Job) (updated : List (Nat × Columns × Int)) : Prop where
  company : env.peSiae = some peSiae
  converts : jobsOf env offers = some jobs
  sorted : ¬ (none ∈ removedKeys env locked offers rows ∧ ∃ id, some id ∈ removedKeys env locked offers rows)
  writes : (found env locked rows jobs).mapM written = some updated
  accepted : ∀ job ∈ jobs, accepts env job = true
  unique : ((created env now locked rows peSiae jobs).filterMap sourceKey).Nodup

theorem handle_eq_some {rawPecOffers rawEaOffers : List RawOffer} {db : Db} {rows' : List JobDescription} :
    handle env now locked rawPecOffers rawEaOffers db = some rows' ↔
      ∃ peSiae jobs updated, Ends env now locked (rawOffers rawPecOffers rawEaOffers) db.rows peSiae jobs updated ∧
        rows' = left env now locked (rawOffers rawPecOffers rawEaOffers) db.rows peSiae jobs updated := by
  have hsorted : ((removedKeys env locked (rawOffers rawPecOffers rawEaOffers) db.rows).any (·.isNone) &&
      (removedKeys env locked (rawOffers rawPecOffers rawEaOffers) db.rows).any (·.isSome)) = true ↔
      none ∈ removedKeys env locked (rawOffers rawPecOffers rawEaOffers) db.rows ∧
        ∃ id, some id ∈ removedKeys env locked (rawOffers rawPecOffers rawEaOffers) db.rows := by
    simp only [Bool.and_eq_true, List.any_eq_true, Option.isNone_iff_eq_none, Option.isSome_iff_exists]
    constructor
    · rintro ⟨⟨_, hnone, rfl⟩, _, hsome, id, rfl⟩
      exact ⟨hnone, id, hsome⟩
    · rintro ⟨hnone, id, hsome⟩
      exact ⟨⟨_, hnone, rfl⟩, _, hsome, id, rfl⟩
  simp only [handle, Option.bind_eq_bind, Option.bind_eq_some_iff]
  constructor
  · rintro ⟨peSiae, hpeSiae, jobs, hjobs, h⟩
    split at h
    · cases h
    · rename_i hmixed
      simp only [Option.bind_eq_some_iff] at h
      obtain ⟨updated, hupdated, h⟩ := h
      split at h
      · rename_i haccepts
        simp only [Bool.and_eq_true, List.all_eq_true, decide_eq_true_eq] at haccepts
        cases h
        exact ⟨peSiae, jobs, updated, ⟨hpeSiae, hjobs, mt hsorted.2 hmixed, hupdated, haccepts.1, haccepts.2⟩, rfl⟩
      · cases h
  · rintro ⟨peSiae, jobs, updated, hends, rfl⟩
    refine ⟨peSiae, hends.company, jobs, hends.converts, ?_⟩
    rw [if_neg (mt hsorted.1 hends.sorted)]
    simp only [Option.bind_eq_some_iff]
    refine ⟨updated, hends.writes, ?_⟩
    rw [if_pos]
    · rfl
    · simp only [Bool.and_eq_true, List.all_eq_true, decide_eq_true_eq]
      exact ⟨hends.accepted, hends.unique⟩

section Ends

variable {updated : List (Nat × Columns × Int)} {removed : List (Option String)}

theorem mem_found {u : JobDescription × Job} : u ∈ found env locked rows jobs ↔
    u.2 ∈ jobs ∧ dbObj env locked rows (some u.2.sourceId) = some u.1 := by
  simp only [found, List.mem_filterMap, Option.map_eq_some_iff]
  constructor
  · rintro ⟨job, hjob, r, hr, rfl⟩
    exact ⟨hjob, hr⟩
  · rintro ⟨hjob, hr⟩
    exact ⟨u.2, hjob, u.1, hr, rfl⟩

theorem mem_added : job ∈ added env locked rows jobs ↔
    job ∈ jobs ∧ dbObj env locked rows (some job.sourceId) = none := by
  simp only [added, List.mem_filter, Option.isNone_iff_eq_none]

theorem eq_of_pk (hpk : (rows.map JobDescription.pk).Nodup) (hr : r ∈ rows) (hs : s ∈ rows) (h : r.pk = s.pk) : r = s :=
  List.inj_on_of_nodup_map hpk hr hs h

namespace Ends

theorem ids (h : Ends env now locked offers rows peSiae jobs updated) (hids : (offers.map RawOffer.id).Nodup) :
    (jobs.map Job.sourceId).Nodup := (sublist_of_jobsOf h.converts).nodup hids

theorem offer (h : Ends env now locked offers rows peSiae jobs updated) (hjob : job ∈ jobs) :
    ∃ o ∈ offers, o.id = job.sourceId :=
  List.mem_map.1 ((sublist_of_jobsOf h.converts).subset (List.mem_map_of_mem hjob))

/-- A row that is found takes the values of its job. -/
theorem updateRow_found (h : Ends env now locked offers rows peSiae jobs updated)
    (hids : (offers.map RawOffer.id).Nodup) (hpk : (rows.map JobDescription.pk).Nodup) (hjob : job ∈ jobs)
    (hr : dbObj env locked rows (some job.sourceId) = some r) :
    ∃ updatedAt, job.updatedAt = some updatedAt ∧ updateRow updated r = edited r job.columns updatedAt := by
  have hwrites := mapM_eq_some.1 h.writes
  have hwritten : written (r, job) ∈ updated.map some := hwrites ▸ List.mem_map_of_mem (mem_found.2 ⟨hjob, hr⟩)
  obtain ⟨u, hu, hwritten⟩ := List.mem_map.1 hwritten
  obtain ⟨t, ht, rfl⟩ := Option.map_eq_some_iff.1 hwritten.symm
  refine ⟨t, ht, ?_⟩
  rcases updateRow_cases updated r with ⟨-, hnot⟩ | ⟨columns, t', hmem, heq⟩
  · exact absurd rfl (hnot _ hu)
  · have hmem' : some (r.pk, columns, t') ∈ (found env locked rows jobs).map written :=
      hwrites ▸ List.mem_map_of_mem hmem
    obtain ⟨⟨r', job'⟩, hfound, hwritten'⟩ := List.mem_map.1 hmem'
    obtain ⟨hjob', hr'⟩ := mem_found.1 hfound
    obtain ⟨t'', ht'', hsame⟩ := Option.map_eq_some_iff.1 hwritten'
    simp only [Prod.mk.injEq] at hsame
    obtain ⟨hpk', rfl, rfl⟩ := hsame
    obtain ⟨hmemr, -, hkey⟩ := dbObj_eq_some hr
    obtain ⟨hmemr', -, hkey'⟩ := dbObj_eq_some hr'
    obtain rfl := eq_of_pk hpk hmemr' hmemr hpk'
    obtain rfl : job' = job :=
      List.inj_on_of_nodup_map (h.ids hids) hjob' hjob (Option.some.inj (hkey'.symm.trans hkey))
    obtain rfl := Option.some.inj (ht''.symm.trans ht)
    exact heq

/-- The other rows are left as they are. -/
theorem updateRow_eq (h : Ends env now locked offers rows peSiae jobs updated)
    (hr : ∀ job ∈ jobs, ∀ s, dbObj env locked rows (some job.sourceId) = some s → s.pk ≠ r.pk) :
    updateRow updated r = r := by
  rcases updateRow_cases updated r with ⟨heq, -⟩ | ⟨columns, t, hmem, -⟩
  · exact heq
  · have hmem' : some (r.pk, columns, t) ∈ (found env locked rows jobs).map written :=
      mapM_eq_some.1 h.writes ▸ List.mem_map_of_mem hmem
    obtain ⟨⟨s, job⟩, hfound, hwritten⟩ := List.mem_map.1 hmem'
    obtain ⟨hjob, hs⟩ := mem_found.1 hfound
    obtain ⟨t', -, hsame⟩ := Option.map_eq_some_iff.1 hwritten
    exact absurd (congrArg Prod.fst hsame) (hr job hjob s hs)

/-- A new row is not touched again. -/
theorem updateRow_newRow (h : Ends env now locked offers rows peSiae jobs updated)
    (hr : r ∈ newRows peSiae now (freshPk rows) (added env locked rows jobs)) : updateRow updated r = r := by
  refine h.updateRow_eq fun job _ s hs heq => ?_
  have hlt := lt_freshPk (dbObj_eq_some hs).1
  have hge := (mem_newRows hr).1
  omega

theorem isRemoved_eq_false (h : Ends env now locked offers rows peSiae jobs updated) (hjob : job ∈ jobs)
    (hr : r.sourceId = some job.sourceId) : isRemoved env (removedKeys env locked offers rows) r = false := by
  obtain ⟨o, ho, hid⟩ := h.offer hjob
  rw [Bool.eq_false_iff]
  intro hremoved
  simp only [isRemoved, Bool.and_eq_true, List.any_eq_true, decide_eq_true_eq] at hremoved
  obtain ⟨-, key, hkey, hsame⟩ := hremoved
  exact (mem_removedKeys.1 hkey).2 o ho (by rw [hsame, hr, hid])

theorem isRemoved_updateRow : isRemoved env removed (updateRow updated r) = isRemoved env removed r := by
  simp only [isRemoved, updateRow_isInManager, updateRow_sourceId]

/-- What a run leaves, row by row. -/
theorem mem_left (h : Ends env now locked offers rows peSiae jobs updated) :
    r ∈ left env now locked offers rows peSiae jobs updated ↔
      (∃ s ∈ rows, r = updateRow updated s ∧ isRemoved env (removedKeys env locked offers rows) s = false) ∨
      r ∈ newRows peSiae now (freshPk rows) (added env locked rows jobs) := by
  simp only [left, created, List.mem_filter, List.mem_map, List.mem_append, Bool.not_eq_true']
  constructor
  · rintro ⟨⟨s, hs | hs, rfl⟩, hkept⟩
    · exact Or.inl ⟨s, hs, rfl, isRemoved_updateRow ▸ hkept⟩
    · rw [h.updateRow_newRow hs]
      exact Or.inr hs
  · rintro (⟨s, hs, rfl, hkept⟩ | hr)
    · exact ⟨⟨s, Or.inl hs, rfl⟩, isRemoved_updateRow.trans hkept⟩
    · obtain ⟨-, job, hjob, heq⟩ := mem_newRows hr
      exact ⟨⟨r, Or.inr hr, h.updateRow_newRow hr⟩, h.isRemoved_eq_false (mem_added.1 hjob).1 (by rw [heq]; rfl)⟩

theorem nodup_created (hpk : (rows.map JobDescription.pk).Nodup) :
    ((created env now locked rows peSiae jobs).map JobDescription.pk).Nodup := by
  rw [created, List.map_append, newRows_pk, List.nodup_append]
  refine ⟨hpk, List.nodup_range', fun pk hrow pk' hnew heq => ?_⟩
  obtain ⟨r, hr, rfl⟩ := List.mem_map.1 hrow
  have hlt := lt_freshPk hr
  have hge := (List.mem_range'_1.1 hnew).1
  omega

theorem nodup_left (hpk : (rows.map JobDescription.pk).Nodup) :
    ((left env now locked offers rows peSiae jobs updated).map JobDescription.pk).Nodup := by
  have hmap : ((created env now locked rows peSiae jobs).map (updateRow updated)).map JobDescription.pk =
      (created env now locked rows peSiae jobs).map JobDescription.pk := by
    rw [List.map_map]
    exact List.map_congr_left fun r _ => updateRow_pk updated r
  exact ((List.filter_sublist.map _).nodup (hmap ▸ nodup_created hpk) :)

theorem unique_left (h : Ends env now locked offers rows peSiae jobs updated) :
    ((left env now locked offers rows peSiae jobs updated).filterMap sourceKey).Nodup := by
  have hmap : ((created env now locked rows peSiae jobs).map (updateRow updated)).filterMap sourceKey =
      (created env now locked rows peSiae jobs).filterMap sourceKey := by
    rw [List.filterMap_map]
    exact List.filterMap_congr fun r _ => updateRow_sourceKey updated r
  exact ((List.filter_sublist.filterMap _).nodup (hmap ▸ h.unique) :)

/-- The job descriptions of other sources are untouched. -/
theorem others_left (h : Ends env now locked offers rows peSiae jobs updated)
    (hpk : (rows.map JobDescription.pk).Nodup) :
    (left env now locked offers rows peSiae jobs updated).filter (fun r => !r.isPeApi) =
      rows.filter fun r => !r.isPeApi := by
  have hnew : (newRows peSiae now (freshPk rows) (added env locked rows jobs)).filter (fun r => !r.isPeApi) = [] := by
    rw [List.filter_eq_nil_iff]
    intro r hr
    obtain ⟨-, job, -, heq⟩ := mem_newRows hr
    rw [heq]
    simp [JobDescription.isPeApi, newRow]
  have hkept : ∀ r, (!r.isPeApi && !isRemoved env (removedKeys env locked offers rows) r) = !r.isPeApi := by
    intro r
    cases hr : r.isPeApi <;> simp [isRemoved, isInManager, hr]
  have hsame : ∀ r ∈ rows.filter (fun r => !r.isPeApi), updateRow updated r = r := by
    intro r hr
    obtain ⟨hmem, hnot⟩ := List.mem_filter.1 hr
    refine h.updateRow_eq fun job _ s hs heq => ?_
    obtain ⟨hmems, hseen, -⟩ := dbObj_eq_some hs
    obtain rfl := eq_of_pk hpk hmems hmem heq
    rw [isPeApi_of_isSeen hseen] at hnot
    cases hnot
  have hcomp : ((fun r => !r.isPeApi) ∘ updateRow updated) = fun r => !r.isPeApi :=
    funext fun r => congrArg (!·) (updateRow_isPeApi updated r)
  rw [left, List.filter_filter]
  simp only [hkept]
  rw [List.filter_map, hcomp, created, List.filter_append, hnew, List.append_nil]
  exact (List.map_congr_left hsame).trans (List.map_id _)

end Ends

end Ends

/-! ## What it needs -/

theorem newRows_sourceId (pk : Nat) (l : List Job) :
    (newRows peSiae now pk l).map JobDescription.sourceId = l.map fun job => some job.sourceId := by
  induction l generalizing pk with
  | nil => rfl
  | cons job l ih =>
      rw [newRows, List.map_cons, ih]
      rfl

theorem mem_filter_source {id : String} : (r ∈ rows.filter fun r => r.isPeApi && r.sourceId = some id) ↔
    r ∈ rows ∧ r.isPeApi = true ∧ r.sourceId = some id := by
  simp only [List.mem_filter, Bool.and_eq_true, decide_eq_true_eq]

theorem Kept.sourceId (h : Kept env now locked rows peSiae r job) : r.sourceId = some job.sourceId := by
  rw [h.columns]
  rfl

theorem isInManager_iff : isInManager env r = true ↔ r.isPeApi = true ∧ env.isEaOrEatt r.company = false := by
  simp only [isInManager, Bool.and_eq_true, Bool.not_eq_true']

/-- A new row of the company is seen when no one locks it. -/
theorem isSeen_newRow {pk : Nat} (hvisible : env.isEaOrEatt peSiae = false) :
    isSeen env (fun _ => false) (newRow peSiae now pk job) = true := by
  simp only [isSeen, isInManager, JobDescription.isPeApi, newRow, hvisible, decide_true, Bool.not_false, Bool.and_self]

theorem isRemoved_of_removable (hpe : r.isPeApi = true) (h : Removable env locked offers rows r) :
    isRemoved env (removedKeys env locked offers rows) r = true := by
  obtain ⟨hvisible, id, hid, hno, hseen⟩ := h
  simp only [isRemoved, Bool.and_eq_true, List.any_eq_true, decide_eq_true_eq]
  refine ⟨⟨isInManager_iff.2 ⟨hpe, hvisible⟩, by rw [hid]; rfl⟩, some id, mem_removedKeys.2 ⟨hseen, ?_⟩, hid.symm⟩
  exact fun o ho heq => hno o ho (Option.some.inj heq)

theorem removable_of_isRemoved (h : isRemoved env (removedKeys env locked offers rows) r = true) :
    Removable env locked offers rows r := by
  simp only [isRemoved, Bool.and_eq_true, List.any_eq_true, decide_eq_true_eq] at h
  obtain ⟨⟨hmanager, hsome⟩, key, hkey, rfl⟩ := h
  obtain ⟨id, hid⟩ := Option.isSome_iff_exists.1 hsome
  rw [hid] at hkey
  obtain ⟨hseen, hno⟩ := mem_removedKeys.1 hkey
  exact ⟨(isInManager_iff.1 hmanager).2, id, hid, fun o ho heq => hno o ho (congrArg some heq), hseen⟩

/-- What is written when the jobs were updated at the time of the run. -/
theorem writes_now (hnow : ∀ job ∈ jobs, job.updatedAt = some now) :
    (found env locked rows jobs).mapM written =
      some ((found env locked rows jobs).map fun u => (u.1.pk, u.2.columns, now)) := by
  rw [mapM_eq_some, List.map_map]
  refine List.map_congr_left fun u hu => ?_
  rw [written, hnow u.2 (mem_found.1 hu).1]
  rfl

/-! ## From the condition -/

section InStep

variable {rawPecOffers rawEaOffers : List RawOffer} {db db' : Db}

/-- When nothing is locked, rows that mirror the offers are left as they are. -/
theorem handle_again (hcompany : env.peSiae = some peSiae)
    (hconverts : jobsOf env (rawOffers rawPecOffers rawEaOffers) = some jobs)
    (hjobs : ∀ job ∈ jobs, accepts env job = true ∧ job.updatedAt = some now ∧ env.isEaOrEatt peSiae = false)
    (hone : ∀ job ∈ jobs, ∃ pk,
      (db'.rows.filter fun r => r.isPeApi && r.sourceId = some job.sourceId) = [newRow peSiae now pk job])
    (hnone : ∀ r ∈ db'.rows, r.isPeApi = true → ∃ job ∈ jobs, r.sourceId = some job.sourceId) (now' : Int) :
    handle env now' (fun _ => false) rawPecOffers rawEaOffers db' = some db'.rows := by
  have hfound : ∀ job ∈ jobs, ∃ r, dbObj env (fun _ => false) db'.rows (some job.sourceId) = some r := by
    intro job hjob
    obtain ⟨pk, hpk⟩ := hone job hjob
    obtain ⟨hmem, -, hid⟩ := mem_filter_source.1 (hpk ▸ List.mem_singleton_self (newRow peSiae now pk job))
    rw [← Option.ne_none_iff_exists']
    exact fun h => dbObj_eq_none.1 h _ hmem (isSeen_newRow (hjobs job hjob).2.2) hid
  have hadded : added env (fun _ => false) db'.rows jobs = [] := by
    rw [List.eq_nil_iff_forall_not_mem]
    intro job hjob
    obtain ⟨hmem, hnot⟩ := mem_added.1 hjob
    obtain ⟨r, hr⟩ := hfound job hmem
    rw [hnot] at hr
    cases hr
  have hcreated : created env now' (fun _ => false) db'.rows peSiae jobs = db'.rows := by
    rw [created, hadded]
    exact List.append_nil _
  have hremoved : removedKeys env (fun _ => false) (rawOffers rawPecOffers rawEaOffers) db'.rows = [] := by
    rw [List.eq_nil_iff_forall_not_mem]
    intro key hkey
    obtain ⟨⟨r, hr, hseen, rfl⟩, hno⟩ := mem_removedKeys.1 hkey
    obtain ⟨job, hjob, hid⟩ := hnone r hr (isPeApi_of_isSeen hseen)
    obtain ⟨o, ho, hsame⟩ := List.mem_map.1 ((sublist_of_jobsOf hconverts).subset (List.mem_map_of_mem hjob))
    exact hno o ho (by rw [hid, hsame])
  have hends : Ends env now' (fun _ => false) (rawOffers rawPecOffers rawEaOffers) db'.rows peSiae jobs
      ((found env (fun _ => false) db'.rows jobs).map fun u => (u.1.pk, u.2.columns, now)) := by
    refine ⟨hcompany, hconverts, ?_, writes_now fun job hjob => (hjobs job hjob).2.1, fun job hjob => (hjobs job hjob).1,
      ?_⟩
    · rw [hremoved]
      exact fun h => List.not_mem_nil h.1
    · rw [hcreated]
      exact db'.unique
  refine handle_eq_some.2 ⟨peSiae, jobs, _, hends, ?_⟩
  have hsame : ∀ r ∈ db'.rows,
      updateRow ((found env (fun _ => false) db'.rows jobs).map fun u => (u.1.pk, u.2.columns, now)) r = r := by
    intro r hr
    rcases updateRow_cases ((found env (fun _ => false) db'.rows jobs).map fun u => (u.1.pk, u.2.columns, now)) r with
      ⟨heq, -⟩ | ⟨columns, t, hmem, heq⟩
    · exact heq
    · obtain ⟨⟨s, job⟩, hu, hwritten⟩ := List.mem_map.1 hmem
      obtain ⟨hjob, hs⟩ := mem_found.1 hu
      simp only [Prod.mk.injEq] at hwritten
      obtain ⟨hpk, rfl, rfl⟩ := hwritten
      obtain ⟨hmems, hseen, hid⟩ := dbObj_eq_some hs
      obtain rfl := eq_of_pk db'.nodup hmems hr hpk
      obtain ⟨pk, hfilter⟩ := hone job hjob
      have hnew : s ∈ [newRow peSiae now pk job] :=
        hfilter ▸ mem_filter_source.2 ⟨hmems, isPeApi_of_isSeen hseen, hid⟩
      rw [heq, List.mem_singleton.1 hnew]
      rfl
  rw [left, hcreated, hremoved, List.map_congr_left hsame, List.map_id']
  exact (List.filter_eq_self.2 fun r _ => by simp [isRemoved]).symm

section Rows

variable (hconverts : jobsOf env offers = some jobs)
  (hrows : ∀ r ∈ rows, r.isPeApi = true →
    Removable env locked offers rows r ∨ ∃ job ∈ jobs, Kept env now locked rows peSiae r job)

include hconverts hrows

/-- A row of the source with the identifier of a job is kept for it. -/
theorem kept_of_sourceId (hids : (offers.map RawOffer.id).Nodup) (hr : r ∈ rows) (hpe : r.isPeApi = true)
    (hjob : job ∈ jobs) (hid : r.sourceId = some job.sourceId) : Kept env now locked rows peSiae r job := by
  have hsub := sublist_of_jobsOf hconverts
  rcases hrows r hr hpe with ⟨-, id, hid', hno, -⟩ | ⟨job', hjob', hkept⟩
  · obtain ⟨o, ho, hsame⟩ := List.mem_map.1 (hsub.subset (List.mem_map_of_mem hjob))
    refine absurd (hsame.trans ?_) (hno o ho)
    exact Option.some.inj (hid.symm.trans hid')
  · obtain rfl : job' = job := List.inj_on_of_nodup_map (hsub.nodup hids) hjob' hjob
      (Option.some.inj (hkept.sourceId.symm.trans hid))
    exact hkept

/-- When no row is found for a job, none has its identifier. -/
theorem sourceId_ne_of_dbObj (hids : (offers.map RawOffer.id).Nodup) (hjob : job ∈ jobs)
    (h : dbObj env locked rows (some job.sourceId) = none) (hr : r ∈ rows) (hpe : r.isPeApi = true) :
    r.sourceId ≠ some job.sourceId := fun hid =>
  dbObj_eq_none.1 h r hr (kept_of_sourceId hconverts hrows hids hr hpe hjob hid).seen hid

/-- The run ends. -/
theorem ends_of_rows (hids : (offers.map RawOffer.id).Nodup) (hunique : (rows.filterMap sourceKey).Nodup)
    (hcompany : env.peSiae = some peSiae)
    (hjobs : ∀ job ∈ jobs, accepts env job = true ∧ job.updatedAt = some now ∧ env.isEaOrEatt peSiae = false) :
    Ends env now locked offers rows peSiae jobs
      ((found env locked rows jobs).map fun u => (u.1.pk, u.2.columns, now)) := by
  have hjobIds := (sublist_of_jobsOf hconverts).nodup hids
  refine ⟨hcompany, hconverts, ?_, writes_now fun job hjob => (hjobs job hjob).2.1, fun job hjob => (hjobs job hjob).1, ?_⟩
  · rintro ⟨hnone, -⟩
    obtain ⟨⟨r, hr, hseen, hid⟩, -⟩ := mem_removedKeys.1 hnone
    rcases hrows r hr (isPeApi_of_isSeen hseen) with ⟨-, id, hid', -⟩ | ⟨job, -, hkept⟩
    · rw [hid] at hid'
      cases hid'
    · have hid' := hkept.sourceId
      rw [hid] at hid'
      cases hid'
  · rw [created, List.filterMap_append, List.nodup_append]
    refine ⟨hunique, ?_, fun k hk k' hk' heq => ?_⟩
    · refine (newRows_sourceKey_sublist _ _).nodup ?_
      have hadded : ((added env locked rows jobs).map Job.sourceId).Nodup :=
        (List.filter_sublist.map _).nodup hjobIds
      have hpairs := hadded.map (f := fun id => (JobSource.peApi, id)) fun _ _ h => congrArg Prod.snd h
      rwa [List.map_map] at hpairs
    · subst heq
      obtain ⟨r, hr, hkey⟩ := List.mem_filterMap.1 hk
      obtain ⟨job, hjob, rfl⟩ := List.mem_map.1 ((newRows_sourceKey_sublist _ _).subset hk')
      obtain ⟨hmem, hnot⟩ := mem_added.1 hjob
      have hsource : r.isPeApi = true ∧ r.sourceId = some job.sourceId := by
        simp only [sourceKey] at hkey
        split at hkey
        · rename_i hkind hid
          split at hkey
          · cases hkey
          · cases hkey
            exact ⟨decide_eq_true hkind, hid⟩
        · cases hkey
      exact sourceId_ne_of_dbObj hconverts hrows hids hmem hnot hr hsource.1 hsource.2

/-- One row is left for each job. -/
theorem left_one (hids : (offers.map RawOffer.id).Nodup) (hpk : (rows.map JobDescription.pk).Nodup)
    {updated : List (Nat × Columns × Int)} (h : Ends env now locked offers rows peSiae jobs updated)
    (hnow : ∀ job ∈ jobs, job.updatedAt = some now) (hjob : job ∈ jobs) :
    ∃ pk, ((left env now locked offers rows peSiae jobs updated).filter fun r =>
      r.isPeApi && r.sourceId = some job.sourceId) = [newRow peSiae now pk job] := by
  have hnodup : (left env now locked offers rows peSiae jobs updated).Nodup := (Ends.nodup_left hpk).of_map _
  have hsame : ∀ job' ∈ jobs, some job'.sourceId = some job.sourceId → job' = job := fun job' hjob' heq =>
    List.inj_on_of_nodup_map (h.ids hids) hjob' hjob (Option.some.inj heq)
  cases hobj : dbObj env locked rows (some job.sourceId) with
  | none =>
      obtain ⟨pk, -, hnew⟩ : ∃ pk, freshPk rows ≤ pk ∧
          newRow peSiae now pk job ∈ newRows peSiae now (freshPk rows) (added env locked rows jobs) :=
        exists_mem_newRows (freshPk rows) (mem_added.2 ⟨hjob, hobj⟩)
      refine ⟨pk, filter_eq_singleton hnodup (h.mem_left.2 (Or.inr hnew)) (by simp [JobDescription.isPeApi, newRow]) ?_⟩
      intro r hr hsource
      simp only [Bool.and_eq_true, decide_eq_true_eq] at hsource
      rcases h.mem_left.1 hr with ⟨s, hs, rfl, -⟩ | hr
      · rw [updateRow_isPeApi, updateRow_sourceId] at hsource
        exact absurd hsource.2 (sourceId_ne_of_dbObj hconverts hrows hids hjob hobj hs hsource.1)
      · have hsources : ((newRows peSiae now (freshPk rows) (added env locked rows jobs)).map
            JobDescription.sourceId).Nodup := by
          rw [newRows_sourceId]
          have hadded : ((added env locked rows jobs).map Job.sourceId).Nodup :=
            (List.filter_sublist.map _).nodup (h.ids hids)
          have hsome := hadded.map (f := some) fun _ _ h => Option.some.inj h
          rwa [List.map_map] at hsome
        exact List.inj_on_of_nodup_map hsources hr hnew hsource.2
  | some s =>
      obtain ⟨hs, hseen, hid⟩ := dbObj_eq_some hobj
      have hkept := kept_of_sourceId hconverts hrows hids hs (isPeApi_of_isSeen hseen) hjob hid
      obtain ⟨t, ht, heq⟩ := h.updateRow_found hids hpk hjob hobj
      obtain rfl := Option.some.inj (ht.symm.trans (hnow job hjob))
      have hnew : updateRow updated s = newRow peSiae t s.pk job := by
        rw [heq, hkept.columns]
        rfl
      refine ⟨s.pk, filter_eq_singleton hnodup ?_ (by simp [JobDescription.isPeApi, newRow]) ?_⟩
      · exact h.mem_left.2 (Or.inl ⟨s, hs, hnew.symm, h.isRemoved_eq_false hjob hid⟩)
      · intro r hr hsource
        simp only [Bool.and_eq_true, decide_eq_true_eq] at hsource
        rcases h.mem_left.1 hr with ⟨s', hs', rfl, -⟩ | hr
        · rw [updateRow_isPeApi, updateRow_sourceId] at hsource
          rw [hkept.only s' hs' hsource.1 (hsource.2.trans hid.symm), hnew]
        · obtain ⟨-, job', hjob', hr'⟩ := mem_newRows hr
          obtain ⟨hmem', hnot⟩ := mem_added.1 hjob'
          have hid' : r.sourceId = some job'.sourceId := by
            rw [hr']
            rfl
          obtain rfl := hsame job' hmem' (hid'.symm.trans hsource.2)
          rw [hobj] at hnot
          cases hnot

omit hconverts in
/-- No other row of the source is left. -/
theorem left_none {updated : List (Nat × Columns × Int)} (h : Ends env now locked offers rows peSiae jobs updated)
    (hr : r ∈ left env now locked offers rows peSiae jobs updated) (hpe : r.isPeApi = true) :
    ∃ job ∈ jobs, r.sourceId = some job.sourceId := by
  rcases h.mem_left.1 hr with ⟨s, hs, rfl, hnot⟩ | hr
  · rw [updateRow_isPeApi] at hpe
    rw [updateRow_sourceId]
    rcases hrows s hs hpe with hremovable | ⟨job, hjob, hkept⟩
    · rw [isRemoved_of_removable hpe hremovable] at hnot
      cases hnot
    · exact ⟨job, hjob, hkept.sourceId⟩
  · obtain ⟨-, job, hjob, heq⟩ := mem_newRows hr
    exact ⟨job, (mem_added.1 hjob).1, by rw [heq]; rfl⟩

end Rows

theorem mirrors_of_inStep (h : InStep env now locked rawPecOffers rawEaOffers db) :
    Mirrors env now locked rawPecOffers rawEaOffers db := by
  obtain ⟨peSiae, jobs, hcompany, hconverts, hjobs, hrows⟩ := h
  have hids := nodup_rawOffers rawPecOffers rawEaOffers
  have hends := ends_of_rows hconverts hrows hids db.unique hcompany hjobs
  have hone := fun job (hjob : job ∈ jobs) =>
    left_one hconverts hrows hids db.nodup hends (fun job hjob => (hjobs job hjob).2.1) hjob
  have hnone := fun r (hr : r ∈ left _ _ _ _ _ _ _ _) (hpe : r.isPeApi = true) => left_none hrows hends hr hpe
  refine ⟨peSiae, jobs, ⟨_, Ends.nodup_left db.nodup, hends.unique_left⟩, hcompany, hconverts,
    handle_eq_some.2 ⟨peSiae, jobs, _, hends, rfl⟩, ?_⟩
  exact ⟨hone, hnone, hends.others_left db.nodup, handle_again hcompany hconverts hjobs hone hnone⟩

/-! ## Back to the condition -/

theorem inStep_of_mirrors (h : Mirrors env now locked rawPecOffers rawEaOffers db) :
    InStep env now locked rawPecOffers rawEaOffers db := by
  obtain ⟨peSiae, jobs, db', hcompany, hconverts, hhandle, hmirrored⟩ := h
  have hids := nodup_rawOffers rawPecOffers rawEaOffers
  obtain ⟨peSiae₁, jobs₁, updated, hends, hrows'⟩ := handle_eq_some.1 hhandle
  obtain rfl : peSiae = peSiae₁ := Option.some.inj (hcompany.symm.trans hends.company)
  obtain rfl : jobs = jobs₁ := Option.some.inj (hconverts.symm.trans hends.converts)
  obtain ⟨peSiae₂, jobs₂, updated', hends', hagain⟩ := handle_eq_some.1 (hmirrored.again now)
  obtain rfl : peSiae = peSiae₂ := Option.some.inj (hcompany.symm.trans hends'.company)
  obtain rfl : jobs = jobs₂ := Option.some.inj (hconverts.symm.trans hends'.converts)
  have hleft : ∀ r, r ∈ db'.rows ↔ r ∈ left env now locked (rawOffers rawPecOffers rawEaOffers) db.rows peSiae jobs
      updated := fun r => hrows' ▸ Iff.rfl
  have hleft' : ∀ r, r ∈ left env now (fun _ => false) (rawOffers rawPecOffers rawEaOffers) db'.rows peSiae jobs
      updated' ↔ r ∈ db'.rows := fun r => hagain ▸ Iff.rfl
  -- the only row of a job
  have honly : ∀ job ∈ jobs, ∃ pk, newRow peSiae now pk job ∈ db'.rows ∧ ∀ r ∈ db'.rows, r.isPeApi = true →
      r.sourceId = some job.sourceId → r = newRow peSiae now pk job := by
    intro job hjob
    obtain ⟨pk, hpk⟩ := hmirrored.one job hjob
    refine ⟨pk, (mem_filter_source.1 (hpk ▸ List.mem_singleton_self _)).1, fun r hr hpe hid => ?_⟩
    exact List.mem_singleton.1 (hpk ▸ mem_filter_source.2 ⟨hr, hpe, hid⟩)
  have hvisible : ∀ job ∈ jobs, env.isEaOrEatt peSiae = false := by
    intro job hjob
    by_contra hhidden
    obtain ⟨pk, -, hrow⟩ := honly job hjob
    have hnone : dbObj env (fun _ => false) db'.rows (some job.sourceId) = none := by
      refine dbObj_eq_none.2 fun r hr hseen hid => hhidden ?_
      have heq := hrow r hr (isPeApi_of_isSeen hseen) hid
      simp only [isSeen, Bool.not_false, Bool.and_true] at hseen
      rw [heq] at hseen
      exact (isInManager_iff.1 hseen).2
    obtain ⟨pk', hfresh, hnew⟩ : ∃ pk', freshPk db'.rows ≤ pk' ∧ newRow peSiae now pk' job ∈
        newRows peSiae now (freshPk db'.rows) (added env (fun _ => false) db'.rows jobs) :=
      exists_mem_newRows (freshPk db'.rows) (mem_added.2 ⟨hjob, hnone⟩)
    have hlt := lt_freshPk ((hleft' _).1 (hends'.mem_left.2 (Or.inr hnew)))
    exact absurd hfresh (Nat.not_le.2 hlt)
  refine ⟨peSiae, jobs, hcompany, hconverts, fun job hjob => ⟨hends.accepted job hjob, ?_, hvisible job hjob⟩,
    fun r hr hpe => ?_⟩
  · obtain ⟨pk, hmem, hrow⟩ := honly job hjob
    cases hobj : dbObj env (fun _ => false) db'.rows (some job.sourceId) with
    | none => exact absurd rfl (dbObj_eq_none.1 hobj _ hmem (isSeen_newRow (hvisible job hjob)))
    | some s =>
        obtain ⟨hs, hseen, hid⟩ := dbObj_eq_some hobj
        obtain rfl := hrow s hs (isPeApi_of_isSeen hseen) hid
        obtain ⟨t, ht, heq⟩ := hends'.updateRow_found hids db'.nodup hjob hobj
        have hedited : updateRow updated' (newRow peSiae now pk job) ∈ db'.rows :=
          (hleft' _).1 (hends'.mem_left.2 (Or.inl ⟨_, hs, rfl, hends'.isRemoved_eq_false hjob hid⟩))
        have hsame := hrow _ hedited (by rw [updateRow_isPeApi]; exact isPeApi_of_isSeen hseen)
          (by rw [updateRow_sourceId, hid])
        rw [heq] at hsame
        rw [ht]
        exact congrArg some (congrArg JobDescription.updatedAt hsame)
  · by_cases hremoved : isRemoved env (removedKeys env locked (rawOffers rawPecOffers rawEaOffers) db.rows) r = true
    · exact Or.inl (removable_of_isRemoved hremoved)
    · have hkept : ∀ s ∈ db.rows, isRemoved env (removedKeys env locked (rawOffers rawPecOffers rawEaOffers) db.rows) s =
          false → updateRow updated s ∈ db'.rows := fun s hs hnot =>
        (hleft _).2 (hends.mem_left.2 (Or.inl ⟨s, hs, rfl, hnot⟩))
      have hmem := hkept r hr (Bool.eq_false_iff.2 hremoved)
      obtain ⟨job, hjob, hid⟩ := hmirrored.none _ hmem (by rw [updateRow_isPeApi]; exact hpe)
      obtain ⟨pk, hnew, hrow⟩ := honly job hjob
      have hrowOf : ∀ s ∈ db.rows, s.isPeApi = true → s.sourceId = some job.sourceId →
          updateRow updated s = newRow peSiae now pk job := fun s hs hpe hid =>
        hrow _ (hkept s hs (hends.isRemoved_eq_false hjob hid)) (by rw [updateRow_isPeApi]; exact hpe)
          (by rw [updateRow_sourceId, hid])
      rw [updateRow_sourceId] at hid
      have hr' := hrowOf r hr hpe hid
      have hpk : r.pk = pk := (updateRow_pk updated r).symm.trans (congrArg JobDescription.pk hr')
      have honlyRow : ∀ s ∈ db.rows, s.isPeApi = true → s.sourceId = r.sourceId → s = r := by
        intro s hs hspe hsid
        have hs' := hrowOf s hs hspe (hsid.trans hid)
        refine eq_of_pk db.nodup hs hr ?_
        exact ((updateRow_pk updated s).symm.trans (congrArg JobDescription.pk hs')).trans hpk.symm
      refine Or.inr ⟨job, hjob, ?_, honlyRow, ?_⟩
      · by_contra hunseen
        have hnone : dbObj env locked db.rows (some job.sourceId) = none := by
          refine dbObj_eq_none.2 fun s hs hseen hsid => hunseen ?_
          rw [← honlyRow s hs (isPeApi_of_isSeen hseen) (hsid.trans hid.symm)]
          exact hseen
        obtain ⟨pk', hfresh, hnew'⟩ : ∃ pk', freshPk db.rows ≤ pk' ∧
            newRow peSiae now pk' job ∈ newRows peSiae now (freshPk db.rows) (added env locked db.rows jobs) :=
          exists_mem_newRows (freshPk db.rows) (mem_added.2 ⟨hjob, hnone⟩)
        have hsame := hrow _ ((hleft _).2 (hends.mem_left.2 (Or.inr hnew'))) (decide_eq_true rfl) rfl
        have hlt := lt_freshPk hr
        have hpk' : pk' = pk := congrArg JobDescription.pk hsame
        omega
      · rcases updateRow_cases updated r with ⟨heq, -⟩ | ⟨columns, t, -, heq⟩
        · rw [heq] at hr'
          rw [hr']
          rfl
        · rw [heq] at hr'
          calc r = edited (edited r columns t) r.columns r.updatedAt := rfl
            _ = edited (newRow peSiae now r.pk job) r.columns r.updatedAt := by rw [hr', hpk]

end InStep

end Itou.Companies.SyncFtOffers
