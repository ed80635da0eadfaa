import Itou.FieldsHistory.Models

/-!
# What an update does to the history
-/

namespace Itou.FieldsHistory

open Itou.Lib

variable {lower : String → String} {fields : List String} {schema : Schema}

/-! ## Values -/

theorem toJsonb_injective {t : ColumnType} {v w : Option t.Value} (h : toJsonb t v = toJsonb t w) : v = w := by
  cases v with
  | none =>
      cases w with
      | none => rfl
      | some w => cases t <;> cases h
  | some v =>
      cases w with
      | none => cases t <;> cases h
      | some w => cases t <;> cases h <;> rfl

/-- Equal values are not distinct for any type. -/
theorem IsDistinctFrom.ne {t : ColumnType} {v w : Option t.Value} (h : IsDistinctFrom lower t v w) : v ≠ w := by
  rintro rfl
  cases t with
  | citext =>
      cases v with
      | none => exact h rfl
      | some s => exact h rfl
  | text => exact h rfl
  | date => exact h rfl
  | boolean => exact h rfl
  | integer => exact h rfl

/-- But for `citext`, distinct is different. -/
theorem isDistinctFrom_of_ne {t : ColumnType} {v w : Option t.Value} (ht : t ≠ .citext) (h : v ≠ w) :
    IsDistinctFrom lower t v w := by
  cases t with
  | citext => exact absurd rfl ht
  | text => exact h
  | date => exact h
  | boolean => exact h
  | integer => exact h

theorem json_eq_iff {row row' : Row schema} {field : String} :
    row.json field = row'.json field ↔ row.values field = row'.values field := by
  constructor
  · exact toJsonb_injective
  · intro h
    rw [Row.json, Row.json, h]

/-! ## Entries -/

theorem lookup_map_filter {l : List String} {p : String → Bool} (f : String → JsonbScalar) {field : String}
    (h : field ∈ l ∧ p field = true) : ((l.filter p).map fun x => (x, f x)).lookup field = some (f field) := by
  induction l with
  | nil => exact absurd h.1 List.not_mem_nil
  | cons x l ih =>
      by_cases hx : field = x
      · subst hx
        simp [h.2]
      · have hl : field ∈ l := (List.mem_cons.mp h.1).resolve_left hx
        by_cases hp : p x = true
        · rw [List.filter_cons_of_pos hp, List.map_cons, List.lookup_cons, beq_eq_false_iff_ne.mpr hx]
          exact ih ⟨hl, h.2⟩
        · rw [List.filter_cons_of_neg hp]
          exact ih ⟨hl, h.2⟩

theorem lookup_map_filter_eq_none {l : List String} {p : String → Bool} (f : String → JsonbScalar) {field : String}
    (h : ¬ (field ∈ l ∧ p field = true)) : ((l.filter p).map fun x => (x, f x)).lookup field = none := by
  rw [List.lookup_eq_none_iff]
  rintro ⟨x, j⟩ hx
  simp only [List.mem_map, List.mem_filter, Prod.mk.injEq] at hx
  obtain ⟨x', hx', rfl, -⟩ := hx
  rw [bne_iff_ne]
  rintro rfl
  exact h hx'

theorem jsonbObjectAgg_getD (pairs : List (String × JsonbScalar)) : (jsonbObjectAgg pairs).getD [] = pairs := by
  unfold jsonbObjectAgg
  split
  · rename_i h
    rw [h, Option.getD_none]
  · rfl

/-- An entry has the fields whose values differ. -/
theorem change_rowsDiff {old new : Row schema} {timestamp : DateTime} {context : String} {field : String} :
    (rowsDiff fields old new timestamp context).change field =
      if field ∈ fields ∧ old.json field ≠ new.json field then some ⟨old.json field, new.json field⟩ else none := by
  simp only [Entry.change, rowsDiff, jsonbObjectAgg_getD]
  split
  · rename_i h
    have hp : field ∈ fields ∧ decide (old.json field ≠ new.json field) = true := ⟨h.1, decide_eq_true h.2⟩
    rw [lookup_map_filter (fun x => old.json x) hp, lookup_map_filter (fun x => new.json x) hp]
    rfl
  · rename_i h
    have hp : ¬ (field ∈ fields ∧ decide (old.json field ≠ new.json field) = true) := by
      rwa [decide_eq_true_eq]
    rw [lookup_map_filter_eq_none (fun x => old.json x) hp]
    rfl

/-! ## Updates -/

variable {old : Row schema} {label : Session × Update schema}

/-- An update is refused, changes nothing that the trigger sees, or is recorded. -/
theorem after_cases (lower : String → String) (fields : List String) (old : Row schema)
    (label : Session × Update schema) :
    (Condition lower fields old (label.2.new old) ∧ old.after lower fields label = old) ∨
    (¬ Condition lower fields old (label.2.new old) ∧ old.after lower fields label = label.2.new old ∧
      (label.2.new old).fieldsHistory = old.fieldsHistory) ∨
    (Condition lower fields old (label.2.new old) ∧ (label.2.new old).fieldsHistory = old.fieldsHistory ∧
      ∃ context, old.after lower fields label = { label.2.new old with
        fieldsHistory := old.fieldsHistory ++
          [rowsDiff fields old (label.2.new old) label.1.currentTimestamp context] }) := by
  by_cases hcondition : Condition lower fields old (label.2.new old)
  · simp only [Row.after, Row.update, hcondition, if_true, func]
    by_cases hhistory : (label.2.new old).fieldsHistory = old.fieldsHistory
    · cases hcontext : label.1.currentContext with
      | none => simp [hhistory]
      | some context =>
          simp only [hhistory, ne_eq, not_true_eq_false, if_false]
          exact Or.inr (Or.inr ⟨trivial, trivial, context, rfl⟩)
    · simp [hhistory]
  · have hhistory : (label.2.new old).fieldsHistory = old.fieldsHistory := by
      by_contra hne
      exact hcondition (Or.inr fun h => hne h.symm)
    simp only [Row.after, Row.update, hcondition, if_false]
    exact Or.inr (Or.inl ⟨not_false, trivial, hhistory⟩)

theorem appends (lower : String → String) (fields : List String) (old : Row schema)
    (label : Session × Update schema) : old.Appends lower fields label := by
  unfold Row.Appends
  rcases after_cases lower fields old label with ⟨-, h⟩ | ⟨-, h, hhistory⟩ | ⟨-, -, context, h⟩
  · exact ⟨[], by rw [h, List.append_nil]⟩
  · exact ⟨[], by rw [h, hhistory, List.append_nil]⟩
  · exact ⟨[rowsDiff fields old (label.2.new old) label.1.currentTimestamp context], by rw [h]⟩

theorem appendsChanges (lower : String → String) (fields : List String) (old : Row schema)
    (label : Session × Update schema) : old.AppendsChanges lower fields label := by
  intro hsame
  rcases after_cases lower fields old label with ⟨-, h⟩ | ⟨-, h, hhistory⟩ | ⟨hcondition, hhistory, -⟩
  · rw [h]
  · rw [h, hhistory]
  · rcases hcondition with ⟨field, hfield, hdistinct⟩ | hne
    · exact absurd (hsame field hfield).symm hdistinct.ne
    · exact absurd hhistory.symm hne

/-! ## Journals -/

theorem journal_of_fieldsHistory {row row' : Row schema} (h : row'.fieldsHistory = row.fieldsHistory) (field : String) :
    row'.journal field = row.journal field := by
  rw [Row.journal, Row.journal, h]

/-- A recorded update leads each journal to the new value. -/
theorem leadsTo_of_recorded {row new : Row schema} {timestamp : DateTime} {context field : String}
    (h : LeadsTo (row.journal field) (row.json field)) (hfield : field ∈ fields) :
    LeadsTo (Row.journal { new with
      fieldsHistory := row.fieldsHistory ++ [rowsDiff fields row new timestamp context] } field) (new.json field) := by
  simp only [Row.journal, List.filterMap_append, List.filterMap_cons, List.filterMap_nil, change_rowsDiff, hfield,
    true_and]
  by_cases hjson : row.json field = new.json field
  · simp only [hjson, ne_eq, not_true_eq_false, if_false, List.append_nil]
    exact hjson ▸ h
  · simp only [hjson, ne_eq, not_false_eq_true, if_true]
    exact h.append

/-- The history of the row after an update replays exactly when the update leaves nothing unseen. -/
theorem replays_after (h : old.Replays fields) :
    (old.after lower fields label).Replays fields ↔ old.NothingUnseen lower fields label := by
  unfold Row.NothingUnseen
  rcases after_cases lower fields old label with ⟨hcondition, heq⟩ | ⟨hcondition, heq, hhistory⟩ |
    ⟨hcondition, -, context, heq⟩
  · rw [heq]
    exact ⟨fun _ hnot => absurd hcondition hnot, fun _ => h⟩
  · rw [heq]
    simp only [hcondition, not_false_eq_true, forall_const]
    refine forall₂_congr fun field hfield => ?_
    rw [journal_of_fieldsHistory hhistory, (h field hfield).iff_eq, json_eq_iff, eq_comm]
  · rw [heq]
    exact ⟨fun _ hnot => absurd hcondition hnot, fun _ field hfield => leadsTo_of_recorded (h field hfield) hfield⟩

/-! ## Runs -/

theorem replays_iff_nothingUnseen (lower : String → String) (fields : List String)
    (values : (column : String) → Option (schema column).Value) (updates : List (Session × Update schema)) :
    AllStates (Row.step lower fields) (Row.Replays fields) (Row.inserted values) updates ↔
      AllSteps (Row.step lower fields) (Row.NothingUnseen lower fields) (Row.inserted values) updates := by
  have hstart : (Row.inserted values).Replays fields := fun field _ => LeadsTo.nil
  refine allStates_iff_allSteps (J := fun _ => True) (fun _ _ _ _ _ _ => trivial) ?_ trivial hstart
  rintro row label _ - hreplays ⟨⟩
  exact replays_after hreplays

/-- The history grows at its end, with changes, whatever is updated. -/
theorem historyReplays_of_replays {row : Row schema} {updates : List (Session × Update schema)}
    (h : AllStates (Row.step lower fields) (Row.Replays fields) row updates) :
    HistoryReplays lower fields row updates where
  replays := h
  appends := allSteps_of_forall fun row label => appends lower fields row label
  appendsChanges := allSteps_of_forall fun row label => appendsChanges lower fields row label

end Itou.FieldsHistory
