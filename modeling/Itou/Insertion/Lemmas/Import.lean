import Itou.Insertion.Import
import Mathlib.Data.List.Nodup

/-!
# What one run writes

The row that a run leaves under a `uid`, for each step of the command.
-/

namespace Itou.Insertion

open Itou.Lib

/-! ## Items of the APIs -/

section Items

variable {ι : Type} {id : ι → String}

theorem notMem_seenIds {seenIds : List String} {items : List ι} {item : ι} (h : item ∈ unseenItems id seenIds items) :
    id item ∉ seenIds := by
  induction items generalizing seenIds with
  | nil => cases h
  | cons head items ih =>
      unfold unseenItems at h
      split at h
      · exact ih h
      · rename_i hhead
        rcases List.mem_cons.mp h with rfl | h
        · exact hhead
        · exact fun hmem => ih h (List.mem_cons_of_mem _ hmem)

theorem nodup_unseenItems (seenIds : List String) (items : List ι) : ((unseenItems id seenIds items).map id).Nodup := by
  induction items generalizing seenIds with
  | nil => exact List.nodup_nil
  | cons head items ih =>
      unfold unseenItems
      split
      · exact ih seenIds
      · rw [List.map_cons, List.nodup_cons]
        refine ⟨fun hmem => ?_, ih _⟩
        obtain ⟨item, hitem, heq⟩ := List.mem_map.mp hmem
        exact notMem_seenIds hitem (heq ▸ List.mem_cons_self)

/-- In a list without duplicates, an identifier finds its item. -/
theorem find?_of_mem {items : List ι} (hnodup : (items.map id).Nodup) {item : ι} (h : item ∈ items) :
    items.find? (fun i => id i = id item) = some item := by
  induction items with
  | nil => cases h
  | cons head items ih =>
      rw [List.map_cons, List.nodup_cons] at hnodup
      rcases List.mem_cons.mp h with rfl | h
      · exact List.find?_cons_of_pos (by simp)
      · have hne : id head ≠ id item := fun heq => hnodup.1 (heq ▸ List.mem_map_of_mem h)
        rw [List.find?_cons_of_neg (by simpa using hne)]
        exact ih hnodup.2 h

theorem find?_eq_none {items : List ι} {uid : String} :
    items.find? (fun i => id i = uid) = none ↔ uid ∉ items.map id := by
  rw [List.find?_eq_none, List.mem_map]
  simp only [decide_eq_true_eq, not_exists, not_and]

end Items

/-! ## The loop and the updates of `is_active` -/

section Loop

variable {ρ ι : Type} {isActive : ρ → Bool} {setIsActive : Bool → ρ → ρ}

theorem lookup_updateIsActive (hset : ∀ b r, isActive (setIsActive b r) = b) (hsame : ∀ r, setIsActive (isActive r) r = r)
    (rows : AList fun _ : String => ρ) (removedUids : List String) (uid : String) :
    (updateIsActive isActive setIsActive rows removedUids).lookup uid =
      (rows.lookup uid).map (setIsActive (uid ∉ removedUids)) := by
  rw [updateIsActive, lookup_updateWhere, lookup_updateWhere, Option.map_map]
  refine congrArg (fun f => (rows.lookup uid).map f) (funext fun r => ?_)
  have hr := hsame r
  cases hactive : isActive r <;> by_cases hmem : uid ∈ removedUids <;>
    simp_all [Function.comp]

variable {d : Differ String ρ ι}
  {write : AList (fun _ : String => ρ) → DiffItem String ρ ι → Option (AList fun _ : String => ρ)}
  {written : DiffItem String ρ ι → Option ρ → Option ρ} {rows rows' : AList fun _ : String => ρ} {items : List ι}

/-- The loop and the updates leave a row that the API does not return as it was, but inactive. -/
theorem lookup_absent (hset : ∀ b r, isActive (setIsActive b r) = b) (hsame : ∀ r, setIsActive (isActive r) r = r)
    (hwrite : ∀ t x t', write t x = some t' →
      ∀ k, t'.lookup k = if x.key = k then written x (t.lookup k) else t.lookup k)
    (hremoved : ∀ t k r, write t (.removed k r) = some t) (hnodup : (items.map d.key).Nodup)
    (h : (d.diff rows items).foldlM write rows = some rows') {uid : String} (huid : uid ∉ items.map d.key) :
    (updateIsActive isActive setIsActive rows' ((d.diff rows items).filterMap DiffItem.removedKey?)).lookup uid =
      (rows.lookup uid).map (setIsActive false) := by
  rw [lookup_updateIsActive hset hsame, lookup_foldlM_diff hwrite hremoved hnodup h uid, find?_eq_none.mpr huid]
  cases hrow : rows.lookup uid with
  | none => rfl
  | some row =>
      have hmem : uid ∈ (d.diff rows items).filterMap DiffItem.removedKey? :=
        mem_removedKeys.mpr ⟨AList.lookup_isSome.mp (by rw [hrow]; rfl), huid⟩
      simp only [Option.bind_none, Option.elim, Option.map_some, hmem, not_true_eq_false, decide_false]

/-- A row that the API returns is active, and is what the loop wrote. -/
theorem lookup_returned (hset : ∀ b r, isActive (setIsActive b r) = b) (hsame : ∀ r, setIsActive (isActive r) r = r)
    (hwrite : ∀ t x t', write t x = some t' →
      ∀ k, t'.lookup k = if x.key = k then written x (t.lookup k) else t.lookup k)
    (hremoved : ∀ t k r, write t (.removed k r) = some t) (hnodup : (items.map d.key).Nodup)
    (h : (d.diff rows items).foldlM write rows = some rows') {item : ι} (hitem : item ∈ items) :
    (updateIsActive isActive setIsActive rows' ((d.diff rows items).filterMap DiffItem.removedKey?)).lookup (d.key item) =
      ((d.compare rows item).elim (rows.lookup (d.key item)) fun x => written x (rows.lookup (d.key item))).map
        (setIsActive true) := by
  have hkept : d.key item ∉ (d.diff rows items).filterMap DiffItem.removedKey? := fun hmem =>
    (mem_removedKeys.mp hmem).2 (List.mem_map_of_mem hitem)
  rw [lookup_updateIsActive hset hsame, lookup_foldlM_diff hwrite hremoved hnodup h, find?_of_mem hnodup hitem]
  simp only [Option.bind_some, hkept, not_false_eq_true, decide_true]

end Loop

/-! ## Structures -/

section Structures

variable {db db' : Db} {answers : Answers}

/-- The row of a structure that the API returns: it is filled when it is new, or has another `date_maj`. -/
def structureInForce (row? : Option Structure) (item : StructureItem) : Structure :=
  match row? with
  | none => fillStructureFromApiData .new item
  | some row => if structureDiffer.changed row item then fillStructureFromApiData row item else row

theorem lookup_saveStructure {rows rows' : AList fun _ : String => Structure} {uid : String} {row : Structure}
    {item : StructureItem} (h : db.saveStructure rows uid row item = some rows') (k : String) :
    rows'.lookup k = if uid = k then some (fillStructureFromApiData row item) else rows.lookup k := by
  unfold Db.saveStructure at h
  obtain ⟨-, -, h⟩ := Option.bind_eq_some_iff.mp h
  obtain ⟨-, -, h⟩ := Option.bind_eq_some_iff.mp h
  cases h
  split
  · rename_i heq
    rw [heq, AList.lookup_insert]
  · rename_i hne
    exact AList.lookup_insert_ne (Ne.symm hne)

/-- What the body of the loop writes under the key of a difference. -/
def structureWritten : DiffItem String Structure StructureItem → Option Structure → Option Structure
  | .added _ item, _ => some (fillStructureFromApiData .new item)
  | .updated _ row item, _ => some (fillStructureFromApiData row item)
  | .removed _ _, old => old

theorem lookup_importStructure {rows rows' : AList fun _ : String => Structure}
    {x : DiffItem String Structure StructureItem} (h : db.importStructure rows x = some rows') (k : String) :
    rows'.lookup k = if x.key = k then structureWritten x (rows.lookup k) else rows.lookup k := by
  cases x with
  | added uid item => exact lookup_saveStructure h k
  | updated uid row item => exact lookup_saveStructure h k
  | removed uid row =>
      cases h
      split <;> rfl

theorem importStructures_frame (h : db.importStructures answers = some db') : db'.services = db.services := by
  obtain ⟨rows, -, h⟩ := Option.bind_eq_some_iff.mp h
  cases h
  rfl

theorem lookup_structure_absent (h : db.importStructures answers = some db') {uid : String}
    (huid : uid ∉ answers.structures.map (·.id)) :
    db'.structures.lookup uid = (db.structures.lookup uid).map (.setIsActive false) := by
  obtain ⟨rows, hrows, h⟩ := Option.bind_eq_some_iff.mp h
  cases h
  exact lookup_absent (d := structureDiffer) (fun _ _ => rfl) (fun _ => rfl) (fun _ _ _ => lookup_importStructure)
    (fun _ _ _ => rfl) (nodup_unseenItems _ _) hrows huid

theorem lookup_structure_returned (h : db.importStructures answers = some db') {item : StructureItem}
    (hitem : item ∈ answers.structures) :
    db'.structures.lookup item.id = some (.setIsActive true (structureInForce (db.structures.lookup item.id) item)) := by
  obtain ⟨rows, hrows, h⟩ := Option.bind_eq_some_iff.mp h
  cases h
  refine (lookup_returned (d := structureDiffer) (fun _ _ => rfl) (fun _ => rfl) (fun _ _ _ => lookup_importStructure)
    (fun _ _ _ => rfl) (nodup_unseenItems _ _) hrows hitem).trans ?_
  cases hrow : db.structures.lookup item.id with
  | none =>
      have hrow' : db.structures.lookup (structureDiffer.key item) = none := hrow
      rw [Differ.compare_of_none hrow', hrow']
      rfl
  | some row =>
      have hrow' : db.structures.lookup (structureDiffer.key item) = some row := hrow
      rw [Differ.compare_of_some hrow', hrow', structureInForce]
      cases structureDiffer.changed row item <;> rfl

end Structures

/-! ## Services -/

section Services

variable {db db' : Db} {answers : Answers} {now : DateTime}

theorem lookup_fillAndSave {rows rows' : AList fun _ : String => Service} {uid : String} {row : Service}
    {item : ServiceItem} (h : db.fillAndSaveServiceFromApiData answers now rows uid row item = some rows') (k : String) :
    rows'.lookup k =
      if uid = k ∧ item.structureId ∈ db.structures then
        some (db.fillServiceFromApiData row item (answers.doraService item.id) now)
      else rows.lookup k := by
  unfold Db.fillAndSaveServiceFromApiData at h
  obtain ⟨-, -, h⟩ := Option.bind_eq_some_iff.mp h
  split at h
  · rename_i hnone
    cases h
    have hnot : item.structureId ∉ db.structures := AList.lookup_eq_none.mp hnone
    simp only [hnot, and_false, if_false]
  · rename_i s hs
    have hmem : item.structureId ∈ db.structures := AList.lookup_isSome.mp (by rw [hs]; rfl)
    obtain ⟨-, -, h⟩ := Option.bind_eq_some_iff.mp h
    cases h
    simp only [hmem, and_true]
    split
    · rename_i heq
      rw [heq, AList.lookup_insert]
    · rename_i hne
      exact AList.lookup_insert_ne (Ne.symm hne)

/-- What the body of the loop leaves under the key of a difference. -/
def Db.serviceWritten (db : Db) (answers : Answers) (now : DateTime) :
    DiffItem String Service ServiceItem → Option Service → Option Service
  | .added _ item, old =>
      if item.structureId ∈ db.structures then
        some (db.fillServiceFromApiData .new item (answers.doraService item.id) now)
      else old
  | .updated _ row item, old =>
      if item.structureId ∈ db.structures then
        some (db.fillServiceFromApiData row item (answers.doraService item.id) now)
      else old
  | .removed _ _, old => old

theorem lookup_importService {rows rows' : AList fun _ : String => Service} {x : DiffItem String Service ServiceItem}
    (h : db.importService answers now rows x = some rows') (k : String) :
    rows'.lookup k = if x.key = k then db.serviceWritten answers now x (rows.lookup k) else rows.lookup k := by
  cases x with
  | added uid item =>
      rw [lookup_fillAndSave h k]
      by_cases hkey : uid = k
      · simp only [DiffItem.key, hkey, true_and, if_true, Db.serviceWritten]
      · simp only [DiffItem.key, hkey, false_and, if_false]
  | updated uid row item =>
      rw [lookup_fillAndSave h k]
      by_cases hkey : uid = k
      · simp only [DiffItem.key, hkey, true_and, if_true, Db.serviceWritten]
      · simp only [DiffItem.key, hkey, false_and, if_false]
  | removed uid row =>
      cases h
      split <;> rfl

theorem lookup_service_absent (h : db.importServices answers now = some db') {uid : String}
    (huid : uid ∉ answers.services.map (·.id)) :
    db'.services.lookup uid = (db.services.lookup uid).map (.setIsActive false) := by
  obtain ⟨rows, hrows, h⟩ := Option.bind_eq_some_iff.mp h
  cases h
  exact lookup_absent (d := serviceDiffer) (fun _ _ => rfl) (fun _ => rfl) (fun _ _ _ => lookup_importService)
    (fun _ _ _ => rfl) (nodup_unseenItems _ _) hrows huid

/-- The row of a service that the API returns. It is filled when its structure is found, and it is new or has another
`date_maj`. -/
def Db.serviceInForce (db : Db) (answers : Answers) (now : DateTime) (row? : Option Service) (item : ServiceItem) :
    Option Service :=
  match row? with
  | none =>
      if item.structureId ∈ db.structures then
        some (db.fillServiceFromApiData .new item (answers.doraService item.id) now)
      else none
  | some row =>
      if serviceDiffer.changed row item ∧ item.structureId ∈ db.structures then
        some (db.fillServiceFromApiData row item (answers.doraService item.id) now)
      else some row

theorem lookup_service_returned (h : db.importServices answers now = some db') {item : ServiceItem}
    (hitem : item ∈ answers.services) :
    db'.services.lookup item.id =
      (db.serviceInForce answers now (db.services.lookup item.id) item).map (.setIsActive true) := by
  obtain ⟨rows, hrows, h⟩ := Option.bind_eq_some_iff.mp h
  cases h
  refine (lookup_returned (d := serviceDiffer) (fun _ _ => rfl) (fun _ => rfl) (fun _ _ _ => lookup_importService)
    (fun _ _ _ => rfl) (nodup_unseenItems _ _) hrows hitem).trans ?_
  cases hrow : db.services.lookup item.id with
  | none =>
      have hrow' : db.services.lookup (serviceDiffer.key item) = none := hrow
      rw [Differ.compare_of_none hrow', hrow']
      rfl
  | some row =>
      have hrow' : db.services.lookup (serviceDiffer.key item) = some row := hrow
      rw [Differ.compare_of_some hrow', hrow', Db.serviceInForce]
      cases serviceDiffer.changed row item with
      | true => simp only [if_true, Option.elim, Db.serviceWritten, true_and]
      | false => simp only [Bool.false_eq_true, if_false, Option.elim, false_and]

end Services

/-! ## Disabled structures -/

section Disabled

variable {db : Db} {answers : Answers}

theorem mem_activeStructures {p : Structure → Bool} {uid : String} :
    uid ∈ db.activeStructures p ↔ ∃ s, db.structures.lookup uid = some s ∧ s.isActive = true ∧ p s = true := by
  simp only [Db.activeStructures, List.mem_map, List.mem_filter, Bool.and_eq_true]
  constructor
  · rintro ⟨⟨k, s⟩, ⟨hmem, hs⟩, rfl⟩
    exact ⟨s, AList.mem_lookup_iff.mpr hmem, hs⟩
  · rintro ⟨s, hlookup, hs⟩
    exact ⟨⟨uid, s⟩, ⟨AList.mem_lookup_iff.mp hlookup, hs⟩, rfl⟩

/-- `allDisabledStructures` are those of the list, and the active ones that their row excludes. -/
theorem mem_allDisabledStructures {uid : String} :
    uid ∈ db.allDisabledStructures answers ↔ uid ∈ answers.nonOrientableStructures ∨
      ∃ s, db.structures.lookup uid = some s ∧ s.isActive = true ∧
        (isBlacklisted s.siret = true ∨ s.source ≠ doraValue ∧ s.email = "") := by
  simp only [Db.allDisabledStructures, Db.blacklistedStructures, Db.diStructuresWithoutEmail, List.mem_append,
    mem_activeStructures, Bool.and_eq_true, bne_iff_ne, beq_iff_eq, or_assoc, and_or_left, exists_or]

theorem lookup_importDisabledStructures (uid : String) :
    (db.importDisabledStructures answers).services.lookup uid =
      (db.services.lookup uid).map fun s =>
        if s.isActive && s.structureUid ∈ db.allDisabledStructures answers && s.isOrientableWithForm then
          { s with isOrientableWithForm := false }
        else s :=
  lookup_updateWhere db.services _ _ uid

end Disabled

end Itou.Insertion
