import Itou.Insertion.Lemmas.Import
import Itou.Lib.Runs

/-!
# What a run leaves, whatever happened before

The flags after a run are those that `Db.orientable` reads in the rows before it.
-/

namespace Itou.Insertion

open Itou.Lib

/-! ## Frames -/

/-- The reference data alone changes. -/
def Db.SameRows (db db' : Db) : Prop := db'.structures = db.structures ∧ db'.services = db.services

theorem Db.SameRows.trans {db db₁ db₂ : Db} (h : db.SameRows db₁) (h' : db₁.SameRows db₂) : db.SameRows db₂ :=
  ⟨h'.1.trans h.1, h'.2.trans h.2⟩

theorem sameRows_foldlM_importReference {xs : List (DiffItem ReferenceKey GenericReferenceItem ReferenceEntry)}
    {s s' : Db × List ReferenceEntry} (h : xs.foldlM importReference s = some s') : s.1.SameRows s'.1 := by
  induction xs generalizing s with
  | nil =>
      cases h
      exact ⟨rfl, rfl⟩
  | cons x xs ih =>
      rw [List.foldlM_cons] at h
      obtain ⟨t, ht, h⟩ := Option.bind_eq_some_iff.mp h
      refine Db.SameRows.trans ?_ (ih h)
      obtain ⟨db, toCreate⟩ := s
      cases x with
      | added key entry =>
          cases ht
          exact ⟨rfl, rfl⟩
      | updated key row entry =>
          cases ht
          exact ⟨rfl, rfl⟩
      | removed key row =>
          simp only [importReference] at ht
          split at ht
          · cases ht
          · cases ht
            exact ⟨rfl, rfl⟩

theorem sameRows_bulkCreate {toCreate : List ReferenceEntry} {db db' : Db} (h : db.bulkCreate toCreate = some db') :
    db.SameRows db' := by
  induction toCreate generalizing db with
  | nil =>
      cases h
      exact ⟨rfl, rfl⟩
  | cons entry toCreate ih =>
      rw [Db.bulkCreate, List.foldlM_cons] at h
      obtain ⟨db₁, hdb₁, h⟩ := Option.bind_eq_some_iff.mp h
      refine Db.SameRows.trans ?_ (ih h)
      split at hdb₁
      · cases hdb₁
      · cases hdb₁
        exact ⟨rfl, rfl⟩

theorem sameRows_importDataInclusion {db db' : Db} {answers : Answers}
    (h : db.importDataInclusionReferenceData answers = some db') : db.SameRows db' := by
  obtain ⟨⟨db₁, toCreate⟩, hloop, h⟩ := Option.bind_eq_some_iff.mp h
  refine Db.SameRows.trans ?_ (sameRows_bulkCreate h)
  suffices hgen : ∀ (kinds : List GenericReferenceItemKind) (s s' : Db × List ReferenceEntry),
      kinds.foldlM (fun s kind =>
        (referenceDiffer.diff (s.1.referencesOf fun key => key.source = .dataInclusion && key.kind = kind)
          ((answers.docs kind).map (·.entry kind))).foldlM importReference s) s = some s' →
        s.1.SameRows s'.1 from
    hgen _ _ _ hloop
  intro kinds
  induction kinds with
  | nil =>
      intro s s' hs
      cases hs
      exact ⟨rfl, rfl⟩
  | cons kind kinds ih =>
      intro s s' hs
      rw [List.foldlM_cons] at hs
      obtain ⟨t, ht, hs⟩ := Option.bind_eq_some_iff.mp hs
      exact (sameRows_foldlM_importReference ht).trans (ih t s' hs)

theorem sameRows_importDora {db db' : Db} {answers : Answers} (h : db.importDoraReferenceData answers = some db') :
    db.SameRows db' := by
  obtain ⟨entries, -, h⟩ := Option.bind_eq_some_iff.mp h
  obtain ⟨⟨db₁, toCreate⟩, hloop, h⟩ := Option.bind_eq_some_iff.mp h
  exact (sameRows_foldlM_importReference hloop).trans (sameRows_bulkCreate h)

theorem sameRows_importSources {db db' : Db} {answers : Answers} (h : db.importSources answers = some db') :
    db.SameRows db' := by
  obtain ⟨⟨db₁, toCreate⟩, hloop, h⟩ := Option.bind_eq_some_iff.mp h
  exact (sameRows_foldlM_importReference hloop).trans (sameRows_bulkCreate h)

theorem sameRows_importReferences {db db' : Db} {answers : Answers} (h : db.importReferences answers = some db') :
    db.SameRows db' := by
  obtain ⟨db₁, h₁, h⟩ := Option.bind_eq_some_iff.mp h
  obtain ⟨db₂, h₂, h⟩ := Option.bind_eq_some_iff.mp h
  exact ((sameRows_importDataInclusion h₁).trans (sameRows_importDora h₂)).trans (sameRows_importSources h)

/-- The steps of a run with the default arguments. -/
theorem handle_all {db db' : Db} {answers : Answers} {now : DateTime}
    (h : db.handle ArgumentData.all answers now = some db') :
    ∃ db₀ db₁ db₂, db.SameRows db₀ ∧ db₀.importStructures answers = some db₁ ∧
      db₁.importServices answers now = some db₂ ∧ db' = db₂.importDisabledStructures answers := by
  obtain ⟨db₀, h₀, h⟩ := Option.bind_eq_some_iff.mp h
  obtain ⟨db₁, h₁, h⟩ := Option.bind_eq_some_iff.mp h
  obtain ⟨db₂, h₂, h⟩ := Option.bind_eq_some_iff.mp h
  exact ⟨db₀, db₁, db₂, sameRows_importReferences h₀, h₁, h₂, (Option.some.inj h).symm⟩

/-! ## Structures -/

section Run

variable {db db₁ db₂ : Db} {answers : Answers} {now : DateTime}

theorem structureActive_importStructures (h : db.importStructures answers = some db₁) (uid : String) :
    db₁.StructureActive uid ↔ uid ∈ answers.structures.map (·.id) := by
  by_cases huid : uid ∈ answers.structures.map (·.id)
  · obtain ⟨item, hitem, rfl⟩ := List.mem_map.mp huid
    simp only [huid, iff_true]
    exact ⟨_, lookup_structure_returned h hitem, rfl⟩
  · simp only [huid, iff_false]
    rintro ⟨s, hs, hactive⟩
    rw [lookup_structure_absent h huid] at hs
    obtain ⟨row, -, rfl⟩ := Option.map_eq_some_iff.mp hs
    cases hactive

theorem mem_structures_importStructures (h : db.importStructures answers = some db₁) (uid : String) :
    uid ∈ db₁.structures ↔ db.knows answers uid = true := by
  rw [← AList.lookup_isSome, Db.knows, Bool.or_eq_true, List.any_eq_true]
  by_cases huid : uid ∈ answers.structures.map (·.id)
  · obtain ⟨item, hitem, rfl⟩ := List.mem_map.mp huid
    rw [lookup_structure_returned h hitem]
    exact ⟨fun _ => .inr ⟨item, hitem, decide_eq_true rfl⟩, fun _ => rfl⟩
  · rw [lookup_structure_absent h huid, Option.isSome_map]
    refine ⟨.inl, fun hor => hor.elim id ?_⟩
    rintro ⟨item, hitem, heq⟩
    exact absurd (of_decide_eq_true heq ▸ List.mem_map_of_mem hitem) huid

theorem refusesForm_iff {source siret email : String} :
    refusesForm source siret email = true ↔ isBlacklisted siret = true ∨ source ≠ doraValue ∧ email = "" := by
  rw [refusesForm, Bool.or_eq_true, Bool.and_eq_true, bne_iff_ne, beq_iff_eq]

/-- The columns of a structure in force: those of its row when it has the `date_maj` of the item. -/
theorem refusesForm_structureInForce (row? : Option Structure) (item : StructureItem) :
    refusesForm (structureInForce row? item).source (structureInForce row? item).siret
        (structureInForce row? item).email = item.refusesForm row? := by
  unfold StructureItem.refusesForm
  cases row? with
  | none => rfl
  | some row =>
      by_cases hdate : row.updatedOn = item.dateMaj
      · simp only [structureInForce, structureDiffer, hdate, bne_self_eq_false, Bool.false_eq_true, if_false,
          Option.filter_some, decide_true, if_true]
      · simp only [structureInForce, structureDiffer, bne_iff_ne, ne_eq, hdate, not_false_eq_true, if_true,
          Option.filter_some, decide_false, Bool.false_eq_true, if_false, fillStructureFromApiData]

/-- The structures that the run finds disabled. -/
theorem mem_allDisabled_importStructures (h : db.importStructures answers = some db₁) (uid : String) :
    uid ∈ db₁.allDisabledStructures answers ↔ db.disabled answers uid = true := by
  rw [mem_allDisabledStructures, Db.disabled, Bool.or_eq_true, decide_eq_true_eq, List.any_eq_true]
  refine or_congr Iff.rfl ?_
  constructor
  · rintro ⟨s, hs, hactive, hrefuses⟩
    obtain ⟨item, hitem, rfl⟩ := List.mem_map.mp ((structureActive_importStructures h uid).mp ⟨s, hs, hactive⟩)
    rw [lookup_structure_returned h hitem] at hs
    cases hs
    refine ⟨item, hitem, ?_⟩
    rw [← refusesForm_structureInForce, decide_eq_true rfl, Bool.true_and]
    exact refusesForm_iff.mpr hrefuses
  · rintro ⟨item, hitem, hrefuses⟩
    rw [Bool.and_eq_true, decide_eq_true_eq] at hrefuses
    obtain ⟨rfl, hrefuses⟩ := hrefuses
    rw [← refusesForm_structureInForce] at hrefuses
    exact ⟨_, lookup_structure_returned h hitem, rfl, refusesForm_iff.mp hrefuses⟩

/-! ## Services -/

theorem structures_importServices (h : db.importServices answers now = some db₁) : db₁.structures = db.structures := by
  obtain ⟨rows, -, h⟩ := Option.bind_eq_some_iff.mp h
  cases h
  rfl

/-- The DORA item decides of the flag, the others keep that of the row. -/
theorem fillService_isOrientable (row : Service) (item : ServiceItem) :
    (db.fillServiceFromApiData row item (answers.doraService item.id) now).isOrientableWithForm =
      (answers.doraData item).elim row.isOrientableWithForm (·.isOrientableWithForm) := by
  simp only [Db.fillServiceFromApiData, fillServiceFromDoraApiData, Answers.doraData]
  cases hdata : (if item.source = doraValue then answers.doraService item.id else none) <;> rfl

theorem fillService_structureUid (row : Service) (item : ServiceItem) :
    (db.fillServiceFromApiData row item (answers.doraService item.id) now).structureUid = item.structureId := by
  simp only [Db.fillServiceFromApiData, fillServiceFromDoraApiData]
  split <;> rfl

end Run

section Services

variable {db db₀ db₁ db' : Db} {answers : Answers} {now : DateTime}

theorem orientable_congr (h : db.SameRows db₀) (item : ServiceItem) :
    db₀.orientable answers item = db.orientable answers item := by
  have hdisabled : ∀ uid, db₀.disabled answers uid = db.disabled answers uid := fun uid => by
    rw [Db.disabled, Db.disabled, h.1]
  have hknows : ∀ uid, db₀.knows answers uid = db.knows answers uid := fun uid => by
    rw [Db.knows, Db.knows, h.1]
  simp only [Db.orientable, h.2, hdisabled, hknows]

/-- The row of a service in force, from the rows before the run. -/
theorem serviceInForce_eq_some (h : db.importStructures answers = some db₁) {item : ServiceItem} {s : Service}
    (hs : db₁.serviceInForce answers now (db.services.lookup item.id) item = some s) :
    (s.isOrientableWithForm && !db.disabled answers s.structureUid) = db.orientable answers item := by
  unfold Db.serviceInForce at hs
  unfold Db.orientable
  simp only [mem_structures_importStructures h] at hs
  cases hrow : db.services.lookup item.id with
  | none =>
      simp only [hrow] at hs
      split at hs
      · cases hs
        rw [fillService_isOrientable, fillService_structureUid]
        cases answers.doraData item <;> rfl
      · cases hs
  | some row =>
      simp only [hrow, serviceDiffer, bne_iff_ne] at hs ⊢
      split at hs
      · rename_i hfill
        cases hs
        rw [if_pos hfill, fillService_isOrientable, fillService_structureUid]
      · rename_i hkeep
        cases hs
        rw [if_neg hkeep]

theorem isSome_serviceInForce (h : db.importStructures answers = some db₁) (item : ServiceItem) :
    (db₁.serviceInForce answers now (db.services.lookup item.id) item).isSome =
      ((db.services.lookup item.id).isSome || db.knows answers item.structureId) := by
  unfold Db.serviceInForce
  simp only [mem_structures_importStructures h]
  cases db.services.lookup item.id with
  | none =>
      simp only [Option.isSome_none, Bool.false_or]
      cases db.knows answers item.structureId <;> rfl
  | some row =>
      simp only [Option.isSome_some, Bool.true_or]
      split <;> rfl

/-- The row after a run of a service that is returned: it is active, with the flag that `Db.orientable` reads. -/
theorem service_of_handle (h : db.handle ArgumentData.all answers now = some db') {item : ServiceItem}
    (hitem : item ∈ answers.services) {s : Service} (hs : db'.services.lookup item.id = some s) :
    s.isActive = true ∧ s.isOrientableWithForm = db.orientable answers item := by
  obtain ⟨db₀, db₁, db₂, hsame, h₁, h₂, rfl⟩ := handle_all h
  rw [lookup_importDisabledStructures, lookup_service_returned h₂ hitem, importStructures_frame h₁, Option.map_map] at hs
  obtain ⟨row, hrow, rfl⟩ := Option.map_eq_some_iff.mp hs
  rw [← orientable_congr hsame, ← serviceInForce_eq_some h₁ hrow]
  have hmem : row.structureUid ∈ db₂.allDisabledStructures answers ↔ db₀.disabled answers row.structureUid = true := by
    rw [← mem_allDisabled_importStructures h₁, mem_allDisabledStructures, mem_allDisabledStructures,
      structures_importServices h₂]
  simp only [Function.comp, Service.setIsActive, Bool.true_and, hmem, Bool.decide_eq_true]
  cases db₀.disabled answers row.structureUid <;> cases row.isOrientableWithForm <;> simp

theorem isSome_service_of_handle (h : db.handle ArgumentData.all answers now = some db') {item : ServiceItem}
    (hitem : item ∈ answers.services) :
    (db'.services.lookup item.id).isSome =
      ((db.services.lookup item.id).isSome || db.knows answers item.structureId) := by
  obtain ⟨db₀, db₁, db₂, hsame, h₁, h₂, rfl⟩ := handle_all h
  rw [lookup_importDisabledStructures, lookup_service_returned h₂ hitem, importStructures_frame h₁, Option.isSome_map,
    Option.isSome_map, isSome_serviceInForce h₁, hsame.2, Db.knows, Db.knows, hsame.1]

/-- A service that is not returned is inactive. -/
theorem not_serviceActive_of_handle (h : db.handle ArgumentData.all answers now = some db') {uid : String}
    (huid : uid ∉ answers.services.map (·.id)) : ¬ db'.ServiceActive uid := by
  obtain ⟨db₀, db₁, db₂, -, h₁, h₂, rfl⟩ := handle_all h
  rintro ⟨s, hs, hactive⟩
  rw [lookup_importDisabledStructures, lookup_service_absent h₂ huid, Option.map_map] at hs
  obtain ⟨row, -, rfl⟩ := Option.map_eq_some_iff.mp hs
  simp only [Function.comp, Service.setIsActive, Bool.false_and, Bool.false_eq_true, if_false] at hactive

theorem structureActive_of_handle (h : db.handle ArgumentData.all answers now = some db') (uid : String) :
    db'.StructureActive uid ↔ uid ∈ answers.structures.map (·.id) := by
  obtain ⟨db₀, db₁, db₂, -, h₁, h₂, rfl⟩ := handle_all h
  rw [← structureActive_importStructures h₁, Db.StructureActive, Db.StructureActive, ← structures_importServices h₂]
  rfl

/-- The result is the one of the answers exactly when what the run keeps says the same. -/
theorem asAnswered_iff (h : db.handle ArgumentData.all answers now = some db') :
    db'.AsAnswered answers ↔ db.Current answers := by
  constructor
  · intro hanswered
    constructor
    · intro item hitem
      rw [← isSome_service_of_handle h hitem]
      obtain ⟨s, hs, -⟩ := (hanswered.services item.id).mpr (List.mem_map_of_mem hitem)
      rw [hs]
      rfl
    · intro item hitem
      obtain ⟨s, hs, -⟩ := (hanswered.services item.id).mpr (List.mem_map_of_mem hitem)
      rw [← (service_of_handle h hitem hs).2]
      exact hanswered.orientable item hitem s hs
  · intro hcurrent
    refine ⟨structureActive_of_handle h, fun uid => ⟨?_, ?_⟩, ?_⟩
    · intro hactive
      by_contra huid
      exact not_serviceActive_of_handle h huid hactive
    · intro huid
      obtain ⟨item, hitem, rfl⟩ := List.mem_map.mp huid
      have hsome := isSome_service_of_handle h hitem
      rw [hcurrent.known item hitem] at hsome
      obtain ⟨s, hs⟩ := Option.isSome_iff_exists.mp hsome
      exact ⟨s, hs, (service_of_handle h hitem hs).1⟩
    · intro item hitem s hs
      rw [(service_of_handle h hitem hs).2]
      exact hcurrent.agrees item hitem

end Services

/-- The answers fix the flags. -/
theorem sameFlags_of_asAnswered {db db' : Db} {answers : Answers} (h : db.AsAnswered answers)
    (h' : db'.AsAnswered answers) : db.SameFlags db' := by
  refine ⟨fun uid => (h.structures uid).trans (h'.structures uid).symm,
    fun uid => (h.services uid).trans (h'.services uid).symm, ?_⟩
  intro uid hactive s hs s' hs'
  obtain ⟨item, hitem, rfl⟩ := List.mem_map.mp ((h.services uid).mp hactive)
  rw [h.orientable item hitem s hs, h'.orientable item hitem s' hs']

end Itou.Insertion
