import Itou.GeiqAssessments.Sync

/-!
# What a synchronization writes

The three lists that `sync_to_db` makes, then the rows of the query set and the other ones after the writes.
-/

namespace Itou.GeiqAssessments.Sync

universe u v w x y

variable {F : Type u} {V : Type v} {D : Type w} {σ : Type x} {K : Type y}
  {mapping : Mapping F K} {owner : LabelItem K V D → σ} {p : σ → Bool} {items : List (LabelItem K V D)}
  {table rows : List (LabelRow F V D σ)} {row : LabelRow F V D σ} {item : LabelItem K V D} {key : Int}

/-! ## Keys -/

theorem mem_sortedKeys {keys : List Int} : key ∈ sortedKeys keys ↔ key ∈ keys := by
  rw [sortedKeys, List.mem_insertionSort, List.mem_dedup]

theorem nodup_sortedKeys (keys : List Int) : (sortedKeys keys).Nodup :=
  (List.perm_insertionSort _ _).nodup_iff.mpr (List.nodup_dedup keys)

theorem dataMap_eq_some (hids : (items.map LabelItem.id).Nodup) :
    dataMap items key = some item ↔ item ∈ items ∧ item.id = key := by
  constructor
  · intro h
    have hmem := List.mem_of_find?_eq_some h
    exact ⟨List.mem_reverse.mp hmem, by simpa using List.find?_some h⟩
  · rintro ⟨hitem, rfl⟩
    cases hfind : dataMap items item.id with
    | none =>
        have hnone := List.find?_eq_none.mp hfind item (List.mem_reverse.mpr hitem)
        exact absurd (decide_eq_true rfl) hnone
    | some other =>
        have hother := List.mem_reverse.mp (List.mem_of_find?_eq_some hfind)
        have hid : other.id = item.id := by simpa using List.find?_some hfind
        rw [List.inj_on_of_nodup_map hids hother hitem hid]

theorem mem_of_dbMap (h : dbMap rows key = some row) : row ∈ rows ∧ row.labelId = key := by
  have hmem := List.mem_of_find?_eq_some h
  exact ⟨List.mem_reverse.mp hmem, by simpa using List.find?_some h⟩

theorem dbMap_isSome (h : row ∈ rows) : ∃ row', dbMap rows row.labelId = some row' := by
  cases hfind : dbMap rows row.labelId with
  | none =>
      have hnone := List.find?_eq_none.mp hfind row (List.mem_reverse.mpr h)
      exact absurd (decide_eq_true rfl) hnone
  | some row' => exact ⟨row', rfl⟩

theorem mem_addedByColl : key ∈ addedByColl items rows ↔
    key ∈ items.map LabelItem.id ∧ key ∉ rows.map LabelRow.labelId := by
  rw [addedByColl, mem_sortedKeys, List.mem_filter, decide_eq_true_eq]

theorem nodup_addedByColl : (addedByColl items rows).Nodup := nodup_sortedKeys _

theorem mem_removedInColl : key ∈ removedInColl items rows ↔
    key ∈ rows.map LabelRow.labelId ∧ key ∉ items.map LabelItem.id := by
  rw [removedInColl, mem_sortedKeys, List.mem_filter, decide_eq_true_eq]

theorem mem_alreadyThere : key ∈ alreadyThere items rows ↔
    key ∈ items.map LabelItem.id ∧ key ∈ rows.map LabelRow.labelId := by
  rw [alreadyThere, mem_sortedKeys, List.mem_filter, decide_eq_true_eq]

/-! ## The differences -/

section Differences

variable [DecidableEq V] [DecidableEq D]

theorem mem_editions {x : DiffItem F K V D σ} : x ∈ editions mapping row item ↔
    x = .edition row item ∧
      ¬((∀ f, row.values f = item.value (mapping.labelKey f)) ∧ row.otherData = item.otherData) := by
  simp only [editions, List.mem_append, List.mem_map, List.mem_filter, decide_eq_true_eq, ne_eq]
  constructor
  · rintro (⟨f, ⟨-, hf⟩, rfl⟩ | hother)
    · exact ⟨rfl, fun h => hf (h.1 f)⟩
    · split at hother
      · rename_i h
        exact ⟨by simpa using hother, fun hsame => h hsame.2⟩
      · exact absurd hother List.not_mem_nil
  · rintro ⟨rfl, h⟩
    by_cases hother : row.otherData = item.otherData
    · have hf : ∃ f, ¬ row.values f = item.value (mapping.labelKey f) :=
        not_forall.mp fun hall => h ⟨hall, hother⟩
      obtain ⟨f, hf⟩ := hf
      exact .inl ⟨f, ⟨mapping.mem_fields f, hf⟩, rfl⟩
    · exact .inr (by rw [if_pos hother]; exact List.mem_singleton.mpr rfl)

section Lists

variable (mapping items rows)

theorem mem_editionsOf {x : DiffItem F K V D σ} : x ∈ editionsOf mapping items rows ↔
    ∃ key ∈ alreadyThere items rows, ∃ row item, dbMap rows key = some row ∧ dataMap items key = some item ∧
      x = .edition row item ∧
      ¬((∀ f, row.values f = item.value (mapping.labelKey f)) ∧ row.otherData = item.otherData) := by
  rw [editionsOf, List.mem_flatMap]
  refine exists_congr fun key => and_congr_right fun _ => ?_
  cases dbMap rows key with
  | none => simp
  | some row =>
      cases dataMap items key with
      | none => simp
      | some item => simpa using mem_editions

theorem toCreate_yieldSyncDiff : (yieldSyncDiff mapping items rows).filterMap DiffItem.toCreate? =
    (addedByColl items rows).filterMap (dataMap items) := by
  have hedited : (editionsOf mapping items rows).filterMap DiffItem.toCreate? = [] := by
    refine List.filterMap_eq_nil_iff.mpr fun x hx => ?_
    obtain ⟨-, -, row, item, -, -, rfl, -⟩ := (mem_editionsOf mapping items rows).mp hx
    rfl
  have hremoved : ((removedInColl items rows).map DiffItem.deletion).filterMap
      (DiffItem.toCreate? : DiffItem F K V D σ → _) = [] := by
    simp [List.filterMap_map, DiffItem.toCreate?, Function.comp_def]
  rw [yieldSyncDiff, List.filterMap_append, List.filterMap_append, hedited, hremoved, List.nil_append,
    List.append_nil, List.filterMap_filterMap]
  refine List.filterMap_congr fun key _ => ?_
  cases dataMap items key <;> rfl

theorem toDelete_yieldSyncDiff : (yieldSyncDiff mapping items rows).filterMap DiffItem.toDelete? =
    removedInColl items rows := by
  have hedited : (editionsOf mapping items rows).filterMap DiffItem.toDelete? = [] := by
    refine List.filterMap_eq_nil_iff.mpr fun x hx => ?_
    obtain ⟨-, -, row, item, -, -, rfl, -⟩ := (mem_editionsOf mapping items rows).mp hx
    rfl
  have hadded : ((addedByColl items rows).filterMap fun key => (dataMap items key).map DiffItem.addition).filterMap
      (DiffItem.toDelete? : DiffItem F K V D σ → _) = [] := by
    refine List.filterMap_eq_nil_iff.mpr fun x hx => ?_
    obtain ⟨key, -, hkey⟩ := List.mem_filterMap.mp hx
    obtain ⟨item, -, rfl⟩ := Option.map_eq_some_iff.mp hkey
    rfl
  rw [yieldSyncDiff, List.filterMap_append, List.filterMap_append, hedited, hadded, List.nil_append,
    List.nil_append, List.filterMap_map]
  exact List.filterMap_some

theorem mem_toUpdate_yieldSyncDiff {obj : Nat × LabelItem K V D} :
    obj ∈ (yieldSyncDiff mapping items rows).filterMap DiffItem.toUpdate? ↔
      ∃ key ∈ alreadyThere items rows, ∃ row, dbMap rows key = some row ∧ row.pk = obj.1 ∧
        dataMap items key = some obj.2 ∧
        ¬((∀ f, row.values f = obj.2.value (mapping.labelKey f)) ∧ row.otherData = obj.2.otherData) := by
  have hmem {x : DiffItem F K V D σ} (hx : x ∈ yieldSyncDiff mapping items rows) (hobj : x.toUpdate? = some obj) :
      x ∈ editionsOf mapping items rows := by
    rw [yieldSyncDiff] at hx
    rcases List.mem_append.mp hx with hx | hx
    · rcases List.mem_append.mp hx with hx | hx
      · exact hx
      · obtain ⟨key, -, hkey⟩ := List.mem_filterMap.mp hx
        obtain ⟨item, -, rfl⟩ := Option.map_eq_some_iff.mp hkey
        exact nomatch hobj
    · obtain ⟨key, -, rfl⟩ := List.mem_map.mp hx
      exact nomatch hobj
  rw [List.mem_filterMap]
  constructor
  · rintro ⟨x, hx, hobj⟩
    obtain ⟨key, hkey, row, item, hrow, hitem, rfl, hchanged⟩ :=
      (mem_editionsOf mapping items rows).mp (hmem hx hobj)
    obtain rfl := Option.some.inj hobj
    exact ⟨key, hkey, row, hrow, rfl, hitem, hchanged⟩
  · obtain ⟨pk, item⟩ := obj
    rintro ⟨key, hkey, row, hrow, rfl, hitem, hchanged⟩
    refine ⟨.edition row item, ?_, rfl⟩
    rw [yieldSyncDiff]
    exact List.mem_append_left _ (List.mem_append_left _
      ((mem_editionsOf mapping items rows).mpr ⟨key, hkey, row, item, hrow, hitem, rfl, hchanged⟩))

end Lists

end Differences

/-- The items to create have the keys that the query set does not have. -/
theorem ids_toCreate (hids : (items.map LabelItem.id).Nodup) :
    ((addedByColl items rows).filterMap (dataMap items)).map LabelItem.id = addedByColl items rows := by
  rw [List.map_filterMap]
  refine (List.filterMap_congr fun key hkey => ?_).trans List.filterMap_some
  obtain ⟨item, hitem, rfl⟩ := List.mem_map.mp (mem_addedByColl.mp hkey).1
  rw [(dataMap_eq_some hids).mpr ⟨hitem, rfl⟩, Option.map_some]

theorem mem_items_of_toCreate (h : item ∈ (addedByColl items rows).filterMap (dataMap items)) :
    item ∈ items ∧ item.id ∉ rows.map LabelRow.labelId := by
  obtain ⟨key, hkey, hitem⟩ := List.mem_filterMap.mp h
  have hmem := List.mem_reverse.mp (List.mem_of_find?_eq_some hitem)
  have hid : item.id = key := by simpa using List.find?_some hitem
  exact ⟨hmem, hid ▸ (mem_addedByColl.mp hkey).2⟩

/-! ## The writes -/

section Writes

variable {objs : List (Nat × LabelItem K V D)}

@[simp] theorem bulkUpdate_labelId : (bulkUpdate mapping objs row).labelId = row.labelId := by
  unfold bulkUpdate
  split <;> rfl

@[simp] theorem bulkUpdate_owner : (bulkUpdate mapping objs row).owner = row.owner := by
  unfold bulkUpdate
  split <;> rfl

theorem bulkUpdate_of_forall_ne (h : ∀ obj ∈ objs, obj.1 ≠ row.pk) : bulkUpdate mapping objs row = row := by
  have hnone : (objs.find? fun obj => obj.1 = row.pk) = none :=
    List.find?_eq_none.mpr fun obj hobj => by simpa using h obj hobj
  rw [bulkUpdate, hnone]

/-- All the objects of a row come from one item. -/
theorem matches_bulkUpdate (hobj : ∃ obj ∈ objs, obj.1 = row.pk) (hitem : ∀ obj ∈ objs, obj.1 = row.pk → obj.2 = item)
    (hid : row.labelId = item.id) : Matches mapping (bulkUpdate mapping objs row) item := by
  obtain ⟨obj, hobj, hpk⟩ := hobj
  cases hfind : objs.find? fun obj => obj.1 = row.pk with
  | none => exact absurd (decide_eq_true hpk) (List.find?_eq_none.mp hfind obj hobj)
  | some found =>
      obtain rfl := hitem found (List.mem_of_find?_eq_some hfind) (by simpa using List.find?_some hfind)
      rw [bulkUpdate, hfind]
      exact ⟨hid, fun _ => rfl, rfl⟩

theorem filter_map_bulkUpdate (objs : List (Nat × LabelItem K V D)) (q : LabelRow F V D σ → Bool)
    (h : ∀ row, q (bulkUpdate mapping objs row) = q row) (rows : List (LabelRow F V D σ)) :
    (rows.map (bulkUpdate mapping objs)).filter q = (rows.filter q).map (bulkUpdate mapping objs) := by
  rw [List.filter_map]
  exact congrArg (List.map _) (List.filter_congr fun row _ => h row)

theorem pk_lt_freshPk (h : row ∈ table) : row.pk < freshPk table := by
  unfold freshPk
  induction table with
  | nil => exact absurd h List.not_mem_nil
  | cons other rest ih =>
      rw [List.map_cons, List.foldr_cons]
      rcases List.mem_cons.mp h with rfl | hrest
      · exact Nat.lt_of_lt_of_le (Nat.lt_succ_self _) (Nat.le_max_left ..)
      · exact Nat.lt_of_lt_of_le (ih hrest) (Nat.le_max_right ..)

theorem mem_createdRows (h : row ∈ createdRows mapping owner table items) :
    ∃ item ∈ items, Matches mapping row item ∧ row.owner = owner item ∧ freshPk table ≤ row.pk := by
  obtain ⟨i, hi, rfl⟩ := List.mem_mapIdx.mp h
  exact ⟨items[i], List.getElem_mem hi, ⟨rfl, fun _ => rfl, rfl⟩, rfl, Nat.le_add_right ..⟩

theorem labelIds_createdRows : (createdRows mapping owner table items).map LabelRow.labelId =
    items.map LabelItem.id := by
  refine List.ext_getElem? fun i => ?_
  simp [createdRows, labelDataToDjango, Function.comp_def]

end Writes

/-! ## The table afterwards -/

section Table

variable [DecidableEq V] [DecidableEq D]

theorem table_syncToDb (mapping : Mapping F K) (owner : LabelItem K V D → σ) (p : σ → Bool)
    (items : List (LabelItem K V D)) (table : List (LabelRow F V D σ)) :
    (syncToDb mapping owner p true items table).table =
      ((table ++ createdRows mapping owner table
          ((addedByColl items (queryset p table)).filterMap (dataMap items))).map
        (bulkUpdate mapping (syncToDb mapping owner p true items table).objToUpdate)).filter
          fun row => row.labelId ∉ removedInColl items (queryset p table) := by
  simp only [syncToDb, if_true, toCreate_yieldSyncDiff, toDelete_yieldSyncDiff]

/-- Only rows of the query set are updated, with the data of the item that has their `label_id`. -/
theorem mem_objToUpdate {obj : Nat × LabelItem K V D}
    (h : obj ∈ (syncToDb mapping owner p true items table).objToUpdate) :
    ∃ row ∈ queryset p table, row.pk = obj.1 ∧ dataMap items row.labelId = some obj.2 := by
  obtain ⟨key, -, row, hrow, hpk, hitem, -⟩ := (mem_toUpdate_yieldSyncDiff mapping items _).mp h
  obtain ⟨hmem, rfl⟩ := mem_of_dbMap hrow
  exact ⟨row, hmem, hpk, hitem⟩

/-- The query set afterwards: its rows that have an item, then those that are created. -/
theorem queryset_syncToDb (hscope : ∀ item ∈ items, p (owner item) = true) :
    queryset p (syncToDb mapping owner p true items table).table =
      (((queryset p table).filter fun row => row.labelId ∈ items.map LabelItem.id) ++
        createdRows mapping owner table ((addedByColl items (queryset p table)).filterMap (dataMap items))).map
        (bulkUpdate mapping (syncToDb mapping owner p true items table).objToUpdate) := by
  rw [table_syncToDb]
  unfold queryset
  rw [filter_map_bulkUpdate _ _ (fun row => by rw [bulkUpdate_labelId]),
    filter_map_bulkUpdate _ _ (fun row => by rw [bulkUpdate_owner]), List.filter_append, List.filter_append,
    List.filter_comm]
  refine congrArg (List.map _) (congr (congrArg _ ?_) ?_)
  · refine List.filter_congr fun row hrow => ?_
    have hmem : row.labelId ∈ (table.filter fun row => p row.owner).map LabelRow.labelId := List.mem_map_of_mem hrow
    simp only [mem_removedInColl, hmem, true_and, not_not]
  · rw [List.filter_filter]
    refine List.filter_eq_self.mpr fun row hrow => ?_
    obtain ⟨item, hitem, hmatches, howner, -⟩ := mem_createdRows hrow
    obtain ⟨hitem, -⟩ := mem_items_of_toCreate hitem
    have hid : row.labelId ∈ items.map LabelItem.id := hmatches.1 ▸ List.mem_map_of_mem hitem
    simp only [howner, hscope item hitem, Bool.true_and, decide_eq_true_eq, mem_removedInColl, not_and, not_not]
    exact fun _ => hid

/-- The other rows are those that have no `label_id` of a deleted row. -/
theorem others_syncToDb (hscope : ∀ item ∈ items, p (owner item) = true) (hpk : (table.map LabelRow.pk).Nodup) :
    (syncToDb mapping owner p true items table).table.filter (fun row => !p row.owner) =
      (table.filter fun row => !p row.owner).filter fun row => row.labelId ∉ removedInColl items (queryset p table) := by
  rw [table_syncToDb, filter_map_bulkUpdate _ _ (fun row => by rw [bulkUpdate_labelId]),
    filter_map_bulkUpdate _ _ (fun row => by rw [bulkUpdate_owner]), List.filter_comm, List.filter_append]
  have hcreated : (createdRows mapping owner table
      ((addedByColl items (queryset p table)).filterMap (dataMap items))).filter (fun row => !p row.owner) = [] := by
    refine List.filter_eq_nil_iff.mpr fun row hrow => ?_
    obtain ⟨item, hitem, -, howner, -⟩ := mem_createdRows hrow
    simp [howner, hscope item (mem_items_of_toCreate hitem).1]
  rw [hcreated, List.append_nil]
  refine (List.map_congr_left fun row hrow => ?_).trans (List.map_id _)
  obtain ⟨hrow, -⟩ := List.mem_filter.mp hrow
  obtain ⟨hrow, howner⟩ := List.mem_filter.mp hrow
  refine bulkUpdate_of_forall_ne fun obj hobj hsame => ?_
  obtain ⟨row', hrow', hpk', -⟩ := mem_objToUpdate hobj
  obtain ⟨hrow', howner'⟩ := List.mem_filter.mp hrow'
  obtain rfl := List.inj_on_of_nodup_map hpk hrow' hrow (hpk'.trans hsame)
  rw [howner'] at howner
  exact nomatch howner

theorem labelIds_syncToDb (hscope : ∀ item ∈ items, p (owner item) = true) (hids : (items.map LabelItem.id).Nodup) :
    (queryset p (syncToDb mapping owner p true items table).table).map LabelRow.labelId =
      ((queryset p table).filter fun row => row.labelId ∈ items.map LabelItem.id).map LabelRow.labelId ++
        addedByColl items (queryset p table) := by
  have hlabel : (LabelRow.labelId ∘ bulkUpdate mapping (syncToDb mapping owner p true items table).objToUpdate) =
      (LabelRow.labelId : LabelRow F V D σ → Int) := funext fun _ => bulkUpdate_labelId
  rw [queryset_syncToDb hscope, List.map_map, hlabel, List.map_append, labelIds_createdRows, ids_toCreate hids]

/-- With one row for each `label_id` of an item, the keys of the query set afterwards are those of the items. -/
theorem labelIds_perm_iff (hscope : ∀ item ∈ items, p (owner item) = true) (hids : (items.map LabelItem.id).Nodup) :
    ((queryset p (syncToDb mapping owner p true items table).table).map LabelRow.labelId).Perm
        (items.map LabelItem.id) ↔
      (((queryset p table).filter fun row => row.labelId ∈ items.map LabelItem.id).map LabelRow.labelId).Nodup := by
  rw [labelIds_syncToDb hscope hids]
  constructor
  · intro hperm
    exact (List.nodup_append.mp (hperm.nodup_iff.mpr hids)).1
  · intro hunique
    refine (List.perm_ext_iff_of_nodup (List.nodup_append.mpr ⟨hunique, nodup_addedByColl, ?_⟩) hids).mpr fun key => ?_
    · rintro key hkey _ hadded rfl
      obtain ⟨row, hrow, rfl⟩ := List.mem_map.mp hkey
      exact (mem_addedByColl.mp hadded).2 (List.mem_map_of_mem (List.mem_filter.mp hrow).1)
    · rw [List.mem_append, mem_addedByColl]
      constructor
      · rintro (hkey | ⟨hid, -⟩)
        · obtain ⟨row, hrow, rfl⟩ := List.mem_map.mp hkey
          exact of_decide_eq_true (List.mem_filter.mp hrow).2
        · exact hid
      · intro hid
        by_cases hkey : key ∈ (queryset p table).map LabelRow.labelId
        · obtain ⟨row, hrow, rfl⟩ := List.mem_map.mp hkey
          exact .inl (List.mem_map_of_mem (List.mem_filter.mpr ⟨hrow, decide_eq_true hid⟩))
        · exact .inr ⟨hid, hkey⟩

/-- Each row of the query set afterwards has the data of its item. -/
theorem data_syncToDb (hscope : ∀ item ∈ items, p (owner item) = true) (hids : (items.map LabelItem.id).Nodup)
    (hpk : (table.map LabelRow.pk).Nodup)
    (hunique : (((queryset p table).filter fun row => row.labelId ∈ items.map LabelItem.id).map LabelRow.labelId).Nodup)
    (hrow : row ∈ queryset p (syncToDb mapping owner p true items table).table) :
    ∃ item ∈ items, Matches mapping row item := by
  rw [queryset_syncToDb hscope] at hrow
  obtain ⟨row, hsource, rfl⟩ := List.mem_map.mp hrow
  rcases List.mem_append.mp hsource with hrow | hrow
  · obtain ⟨hqueryset, hid⟩ := List.mem_filter.mp hrow
    obtain ⟨item, hitem, hid⟩ := List.mem_map.mp (of_decide_eq_true hid)
    have hdata : dataMap items row.labelId = some item := (dataMap_eq_some hids).mpr ⟨hitem, hid⟩
    have hupdate {obj : Nat × LabelItem K V D}
        (hobj : obj ∈ (syncToDb mapping owner p true items table).objToUpdate) (hsame : obj.1 = row.pk) :
        obj.2 = item := by
      obtain ⟨row', hrow', hpk', hitem'⟩ := mem_objToUpdate hobj
      obtain rfl := List.inj_on_of_nodup_map hpk (List.mem_filter.mp hrow').1 (List.mem_filter.mp hqueryset).1
        (hpk'.trans hsame)
      exact Option.some.inj (hitem'.symm.trans hdata)
    refine ⟨item, hitem, ?_⟩
    by_cases hsame : (∀ f, row.values f = item.value (mapping.labelKey f)) ∧ row.otherData = item.otherData
    · by_cases hobj : ∃ obj ∈ (syncToDb mapping owner p true items table).objToUpdate, obj.1 = row.pk
      · exact matches_bulkUpdate hobj (fun obj hobj => hupdate hobj) hid.symm
      · rw [bulkUpdate_of_forall_ne fun obj hmem hobjpk => hobj ⟨obj, hmem, hobjpk⟩]
        exact ⟨hid.symm, hsame⟩
    · -- The row is the one that `db_map` has, since no other has its `label_id`.
      obtain ⟨row', hfound⟩ := dbMap_isSome hqueryset
      obtain ⟨hrow', hlabel⟩ := mem_of_dbMap hfound
      have hfiltered : row' ∈ (queryset p table).filter fun row => row.labelId ∈ items.map LabelItem.id :=
        List.mem_filter.mpr ⟨hrow', decide_eq_true (hlabel ▸ hid ▸ List.mem_map_of_mem hitem)⟩
      obtain rfl := List.inj_on_of_nodup_map hunique hfiltered hrow hlabel
      have hthere : row'.labelId ∈ alreadyThere items (queryset p table) :=
        mem_alreadyThere.mpr ⟨hid ▸ List.mem_map_of_mem hitem, List.mem_map_of_mem hqueryset⟩
      refine matches_bulkUpdate ⟨(row'.pk, item), ?_, rfl⟩ (fun obj hobj => hupdate hobj) hid.symm
      exact (mem_toUpdate_yieldSyncDiff mapping items _).mpr ⟨_, hthere, row', hfound, rfl, hdata, hsame⟩
  · obtain ⟨item, hitem, hmatches, -, hfresh⟩ := mem_createdRows hrow
    refine ⟨item, (mem_items_of_toCreate hitem).1, ?_⟩
    rw [bulkUpdate_of_forall_ne fun obj hobj hsame => ?_]
    · exact hmatches
    · obtain ⟨row', hrow', hpk', -⟩ := mem_objToUpdate hobj
      have hlt := pk_lt_freshPk (List.mem_filter.mp hrow').1
      rw [hpk', hsame] at hlt
      exact absurd hlt (Nat.not_lt.mpr hfresh)

/-- A table that has the data of the API is left as it is. -/
theorem syncToDb_of_mirror (hids : (items.map LabelItem.id).Nodup)
    (hone : ((queryset p table).map LabelRow.labelId).Perm (items.map LabelItem.id))
    (hdata : ∀ row ∈ queryset p table, ∃ item ∈ items, Matches mapping row item) :
    (syncToDb mapping owner p true items table).objToCreate = [] ∧
      (syncToDb mapping owner p true items table).objToUpdate = [] ∧
      (syncToDb mapping owner p true items table).objToDelete = [] := by
  refine ⟨?_, ?_, ?_⟩
  · refine (toCreate_yieldSyncDiff mapping items _).trans ?_
    have hadded : addedByColl items (queryset p table) = [] := by
      refine List.eq_nil_iff_forall_not_mem.mpr fun key hkey => ?_
      obtain ⟨hid, habsent⟩ := mem_addedByColl.mp hkey
      exact habsent (hone.mem_iff.mpr hid)
    rw [hadded, List.filterMap_nil]
  · refine List.eq_nil_iff_forall_not_mem.mpr fun obj hobj => ?_
    obtain ⟨key, -, row, hrow, -, hitem, hchanged⟩ := (mem_toUpdate_yieldSyncDiff mapping items _).mp hobj
    obtain ⟨hmem, rfl⟩ := mem_of_dbMap hrow
    obtain ⟨item, hitem', hlabel, hsame⟩ := hdata row hmem
    have hsome := (dataMap_eq_some hids).mpr ⟨hitem', hlabel.symm⟩
    obtain rfl := Option.some.inj (hsome.symm.trans hitem)
    exact hchanged hsame
  · refine (toDelete_yieldSyncDiff mapping items _).trans (List.eq_nil_iff_forall_not_mem.mpr fun key hkey => ?_)
    obtain ⟨hlabel, habsent⟩ := mem_removedInColl.mp hkey
    exact habsent (hone.mem_iff.mp hlabel)

end Table

end Itou.GeiqAssessments.Sync
