import Itou.FieldsHistory.Lemmas.Trigger

/-!
# The history of the fields replays

It does as long as no update changes a field behind the condition of the trigger. Only a field of type `citext` can
change so, in its letter case.
-/

namespace Itou.FieldsHistory

open Itou.Lib

variable {schema : Schema}

/-- Over any sequence of updates of an inserted row, the history replays, keeps its entries and gets none without a
change, exactly when no field that has entries changes while the condition of the trigger is false. -/
theorem historyReplays_iff (lower : String → String) (fields : List String)
    (values : (column : String) → Option (schema column).Value) (updates : List (Session × Update schema)) :
    HistoryReplays lower fields (Row.inserted values) updates ↔
      AllSteps (Row.step lower fields) (Row.NothingUnseen lower fields) (Row.inserted values) updates := by
  rw [← replays_iff_nothingUnseen]
  exact ⟨fun h => h.replays, historyReplays_of_replays⟩

/-- Without a field of type `citext`, the history of each row replays. -/
theorem historyReplays_of_ne_citext (lower : String → String) (fields : List String)
    (h : ∀ field ∈ fields, schema field ≠ .citext) (values : (column : String) → Option (schema column).Value)
    (updates : List (Session × Update schema)) : HistoryReplays lower fields (Row.inserted values) updates := by
  apply historyReplays_of_replays
  rw [replays_iff_nothingUnseen]
  refine allSteps_of_forall fun row label hcondition field hfield _ => ?_
  by_contra hne
  exact hcondition (Or.inl ⟨field, hfield, isDistinctFrom_of_ne (h field hfield) fun heq => hne heq.symm⟩)

theorem jobSeekerProfile_historyReplays (lower : String → String)
    (values : (column : String) → Option (jobSeekerProfileSchema column).Value)
    (updates : List (Session × Update jobSeekerProfileSchema)) :
    HistoryReplays lower jobSeekerProfileFields (Row.inserted values) updates :=
  historyReplays_of_ne_citext lower jobSeekerProfileFields (by decide) values updates

theorem company_historyReplays (lower : String → String)
    (values : (column : String) → Option (companySchema column).Value) (updates : List (Session × Update companySchema)) :
    HistoryReplays lower companyFields (Row.inserted values) updates :=
  historyReplays_of_ne_citext lower companyFields (by decide) values updates

/-! ## An email that changes its letter case -/

/-- `lower`, on the letters of ASCII. -/
def lowerAscii (s : String) : String := String.ofList (s.toList.map Char.toLower)

theorem userSchema_value (column : String) : (userSchema column).Value = String := by
  unfold userSchema
  split <;> rfl

def userColumn (column : String) (s : String) : Option (userSchema column).Value :=
  some (cast (userSchema_value column).symm s)

/-- A user whose columns have one text. -/
def userExample : Row userSchema := .inserted fun column => userColumn column "a@x.fr"

/-- The `UPDATE` of an email. -/
def setEmail (email : String) : Session × Update userSchema :=
  (⟨⟨100, 0⟩, some "{}"⟩, ⟨fun column => if column = "email" then some (userColumn column email) else none, none⟩)

theorem not_historyReplays_user :
    ¬ HistoryReplays lowerAscii userFields userExample [setEmail "b@x.fr", setEmail "B@x.fr"] :=
  fun h => absurd h.replays (by decide)

end Itou.FieldsHistory
