import Itou.Lib.Dates
import Itou.Lib.Journals
import Itou.Lib.Runs

/-!
# The history of the fields of a row

The trigger `FieldsHistory` is fired before an `UPDATE`, when one of the columns that it follows changes. It appends the
values before and after to the column `fields_history`. The equality of `citext` is a parameter: it compares the values
once they are in lower case.
-/

namespace Itou.FieldsHistory

open Itou.Lib

/-! ## Columns -/

/-- The types of the columns that are followed. -/
inductive ColumnType where
  | text
  | citext
  | date
  | boolean
  | integer
  deriving DecidableEq

/-- What a column has when it is not null. A date is its text in ISO 8601. -/
def ColumnType.Value : ColumnType → Type
  | .text | .citext | .date => String
  | .boolean => Bool
  | .integer => Int

instance : (t : ColumnType) → DecidableEq t.Value
  | .text | .citext | .date => inferInstanceAs (DecidableEq String)
  | .boolean => inferInstanceAs (DecidableEq Bool)
  | .integer => inferInstanceAs (DecidableEq Int)

/-- What `to_jsonb` makes of a column. -/
inductive JsonbScalar where
  | null
  | string (s : String)
  | number (n : Int)
  | boolean (b : Bool)
  deriving DecidableEq

/-- `to_jsonb`. -/
def toJsonb : (t : ColumnType) → Option t.Value → JsonbScalar
  | _, none => .null
  | .text, some s | .citext, some s | .date, some s => .string s
  | .boolean, some b => .boolean b
  | .integer, some n => .number n

/-- `IS DISTINCT FROM`, with the equality of the type. -/
def IsDistinctFrom (lower : String → String) : (t : ColumnType) → Option t.Value → Option t.Value → Prop
  | .citext, some s, some s' => lower s ≠ lower s'
  | _, v, w => v ≠ w

instance (lower : String → String) : (t : ColumnType) → (v w : Option t.Value) → Decidable (IsDistinctFrom lower t v w)
  | .citext, some _, some _ => inferInstanceAs (Decidable (_ ≠ _))
  | .citext, none, _ | .citext, some _, none => inferInstanceAs (Decidable (_ ≠ _))
  | .text, _, _ | .date, _, _ | .boolean, _, _ | .integer, _, _ => inferInstanceAs (Decidable (_ ≠ _))

/-- The columns of a table. -/
abbrev Schema := String → ColumnType

/-! ## Rows -/

/-- An element of `fields_history`. -/
structure Entry where
  before : Option (List (String × JsonbScalar))
  after : Option (List (String × JsonbScalar))
  timestamp : DateTime
  context : String
  deriving DecidableEq

structure Row (schema : Schema) where
  values : (column : String) → Option (schema column).Value
  fieldsHistory : List Entry

/-- An `UPDATE` of the row: the columns that it sets, `fields_history` too when it tries to. -/
structure Update (schema : Schema) where
  values : (column : String) → Option (Option (schema column).Value)
  fieldsHistory : Option (List Entry)

/-- The transaction of an `UPDATE`: its time, and the setting `itou.context` if `set_config` was called. -/
structure Session where
  currentTimestamp : DateTime
  setting : Option String
  deriving DecidableEq

/-- The context, unless the setting is missing or empty. -/
def Session.currentContext (session : Session) : Option String := session.setting.filter (· ≠ "")

variable {schema : Schema}

/-- A column in `to_jsonb` of the row. -/
def Row.json (row : Row schema) (column : String) : JsonbScalar := toJsonb (schema column) (row.values column)

/-- The row `NEW` of an `UPDATE`, from the row `OLD`. -/
def Update.new (update : Update schema) (old : Row schema) : Row schema where
  values := fun column => (update.values column).getD (old.values column)
  fieldsHistory := update.fieldsHistory.getD old.fieldsHistory

/-! ## The trigger -/

/-- `jsonb_object_agg`: null without rows. -/
def jsonbObjectAgg (pairs : List (String × JsonbScalar)) : Option (List (String × JsonbScalar)) :=
  if pairs = [] then none else some pairs

section Trigger

variable (lower : String → String) (fields : List String)

/-- `get_condition`. -/
def Condition (old new : Row schema) : Prop :=
  (∃ field ∈ fields, IsDistinctFrom lower (schema field) (old.values field) (new.values field)) ∨
    old.fieldsHistory ≠ new.fieldsHistory

instance (old new : Row schema) : Decidable (Condition lower fields old new) :=
  inferInstanceAs (Decidable ((∃ field ∈ fields,
    IsDistinctFrom lower (schema field) (old.values field) (new.values field)) ∨ _))

/-- `_rows_diff`. -/
def rowsDiff (old new : Row schema) (timestamp : DateTime) (context : String) : Entry :=
  let changed := fields.filter fun field => old.json field ≠ new.json field
  { before := jsonbObjectAgg (changed.map fun field => (field, old.json field))
    after := jsonbObjectAgg (changed.map fun field => (field, new.json field))
    timestamp
    context }

/-- `get_func`. -/
def func (session : Session) (old new : Row schema) : Except String (Row schema) :=
  if new.fieldsHistory ≠ old.fieldsHistory then .error "Modification du champ \"fields_history\" interdit"
  else match session.currentContext with
    | none => .error "No context available"
    | some context => .ok { new with
        fieldsHistory := new.fieldsHistory ++ [rowsDiff fields old new session.currentTimestamp context] }

/-- An `UPDATE` of a row that has the trigger. -/
def Row.update (old : Row schema) (session : Session) (update : Update schema) : Except String (Row schema) :=
  if Condition lower fields old (update.new old) then func fields session old (update.new old)
  else .ok (update.new old)

/-- The row after an `UPDATE`, which leaves it as it was when it is refused. -/
def Row.after (old : Row schema) (label : Session × Update schema) : Row schema :=
  match old.update lower fields label.1 label.2 with
  | .ok row => row
  | .error _ => old

def Row.step (old : Row schema) (label : Session × Update schema) : Option (Row schema) :=
  some (old.after lower fields label)

end Trigger

/-- A row as it is inserted: the default of `fields_history` is empty. -/
def Row.inserted (values : (column : String) → Option (schema column).Value) : Row schema := ⟨values, []⟩

/-! ## What the history says -/

/-- What an entry says of a field. -/
def Entry.change (entry : Entry) (field : String) : Option (Change JsonbScalar) := do
  let before ← (entry.before.getD []).lookup field
  let after ← (entry.after.getD []).lookup field
  some ⟨before, after⟩

def Row.journal (row : Row schema) (field : String) : List (Change JsonbScalar) :=
  row.fieldsHistory.filterMap fun entry => entry.change field

/-- The entries of each field follow one another, and applied to its first recorded value they end at its value. -/
def Row.Replays (fields : List String) (row : Row schema) : Prop :=
  ∀ field ∈ fields, LeadsTo (row.journal field) (row.json field)

instance (fields : List String) : DecidablePred (fun row : Row schema => row.Replays fields) :=
  fun _ => inferInstanceAs (Decidable (∀ _ ∈ fields, LeadsTo _ _))

section Trigger

variable (lower : String → String) (fields : List String) (old : Row schema) (label : Session × Update schema)

/-- The earlier entries stay. -/
def Row.Appends : Prop := old.fieldsHistory <+: (old.after lower fields label).fieldsHistory

/-- Without a change of a field there is no new entry. -/
def Row.AppendsChanges : Prop :=
  (∀ field ∈ fields, (label.2.new old).values field = old.values field) →
    (old.after lower fields label).fieldsHistory = old.fieldsHistory

/-- When the condition of the trigger is false, no field that has entries changes. -/
def Row.NothingUnseen : Prop :=
  ¬ Condition lower fields old (label.2.new old) →
    ∀ field ∈ fields, old.journal field ≠ [] → (label.2.new old).values field = old.values field

end Trigger

/-- The history of a row over a sequence of updates. -/
structure HistoryReplays (lower : String → String) (fields : List String) (row : Row schema)
    (updates : List (Session × Update schema)) : Prop where
  replays : AllStates (Row.step lower fields) (Row.Replays fields) row updates
  appends : AllSteps (Row.step lower fields) (Row.Appends lower fields) row updates
  appendsChanges : AllSteps (Row.step lower fields) (Row.AppendsChanges lower fields) row updates

/-! ## The models that have the trigger -/

/-- `User`. -/
def userFields : List String :=
  ["first_name", "last_name", "title", "email", "phone", "address_line_1", "address_line_2", "post_code", "city"]

def userSchema : Schema := fun column => if column = "email" then .citext else .text

/-- `JobSeekerProfile`. -/
def jobSeekerProfileFields : List String :=
  ["asp_uid", "birth_country_id", "birth_place_id", "birthdate", "is_not_stalled_anymore", "nir", "pole_emploi_id"]

def jobSeekerProfileSchema : Schema := fun column =>
  if column = "birth_country_id" ∨ column = "birth_place_id" then .integer
  else if column = "birthdate" then .date
  else if column = "is_not_stalled_anymore" then .boolean
  else .text

/-- `Company`. -/
def companyFields : List String := ["siret"]

def companySchema : Schema := fun _ => .text

end Itou.FieldsHistory
