import Itou.Lib.Runs
import Itou.Nir.Forms

/-!
# Identifiers of employees

The NTT of an employee record, from the form of the first step of its creation to the save of the third step. Between
the two, the session keeps the number.

The civility and the identifier that the serializers send, for a record and for an update notification. The other
fields of the person do not depend on them.
-/

namespace Itou.EmployeeRecords

open Itou.Lib
open Itou.Nir (Text Title isDigit validateNir cleanNirTitleBirthdateFields)

/-- `is_ntt_required`. -/
def isNttRequired (nir : Text) : Bool := nir.isEmpty || nir.head? = some '7' || nir.head? = some '8'

/-! ## The validator and the constraint -/

/-- `[0-9a-zA-Z]`. -/
def isAlphanumeric (c : Char) : Bool := isDigit c || ('a' ≤ c && c ≤ 'z') || ('A' ≤ c && c ≤ 'Z')

/-- `NTT_REGEX`, on a whole text. -/
def nttRegex : Text → Bool
  | [] => false
  | sex :: l =>
      sex ∈ ['1', '2'] && (l.take 9).length = 9 && (l.take 9).all isDigit &&
        1 ≤ (l.drop 9).length && (l.drop 9).length ≤ 30 && (l.drop 9).all isAlphanumeric

/-- `re.match`, with an expression between `^` and `$`. The latter also matches before a final end of line. -/
def matchLine (regex : Text → Bool) (l : Text) : Bool :=
  regex l || (l.getLast? = some '\n' && regex l.dropLast)

inductive NttError where
  | tooLong
  | tooShort
  | notValid
  deriving DecidableEq

/-- `validate_ntt`. -/
def validateNtt (ntt : Text) : Except NttError Unit :=
  let ntt := removeSpaces ntt
  if 40 < ntt.length then .error .tooLong
  else if ntt.length < 11 then .error .tooShort
  else if !matchLine nttRegex ntt then .error .notValid
  else .ok ()

/-- `employee_record_ntt_regex`. -/
def nttConstraint : Option Text → Bool
  | none => true
  | some ntt => nttRegex ntt

/-! ## The form -/

/-- `CharField.clean` of the field `ntt`, then `clean_ntt`. -/
def cleanNtt (typed : Text) : Option Text :=
  let value := strip typed
  if value = [] then some []
  else if value.length ≤ 40 ∧ (validateNtt value).isOk then some (removeSpaces value)
  else none

/-- What `NewEmployeeRecordJobSeekerForm` is given. `nir` and `title` are cleaned, `accepts` is about the other
fields. -/
structure FormData where
  title : Option Title
  nir : Text
  lackOfNir : Bool
  ntt : Text
  accepts : Bool

/-- The columns of an employee record that the form reads. -/
structure NttRow where
  jobSeeker : Nat
  ntt : Option Text
  deriving DecidableEq

/-- What `NewEmployeeRecordJobSeekerForm.clean` asks of a number. `usedByOther` is the answer of the database. -/
def cleanWithNtt (title : Option Title) (siren : Text) (usedByOther : Text → Bool) (ntt : Text) : Bool :=
  ntt ≠ [] &&
    (match title with
    | none => true
    | some title => ntt.head? = some (if title = .m then '1' else '2')) &&
    (ntt.drop 1).take 9 = siren && !usedByOther ntt

/-- The number of a `NewEmployeeRecordJobSeekerForm`, with the initial NIR of the job seeker. `none` when the form is
not valid. -/
def NewEmployeeRecordJobSeekerForm.ntt (initialNir siren : Text) (usedByOther : Text → Bool) (data : FormData) :
    Option Text :=
  let mandatoryNtt := !initialNir.isEmpty && isNttRequired initialNir
  -- A field that is disabled has its initial value.
  let disabled := !initialNir.isEmpty && !mandatoryNtt
  match cleanNtt (if disabled then [] else data.ntt) with
  | none => none
  | some ntt =>
      if mandatoryNtt || data.lackOfNir then
        if cleanWithNtt data.title siren usedByOther ntt && data.accepts then some ntt else none
      else if data.nir ≠ [] && data.accepts then some ntt
      else none

/-! ## The views -/

/-- What the views read of a job application. -/
structure NttApplication where
  pk : Nat
  toCompany : Nat
  siren : Text
  jobSeeker : Nat

/-- The numbers of the sessions, of which the key has the company and the job seeker, the NIR of the job seekers, and
the last employee record of each job application. -/
structure NttState where
  session : Nat → Nat → Nat → Option Text
  nir : Nat → Text
  records : Table NttRow

inductive NttRequest where
  | create (session : Nat) (jobApplication : NttApplication) (data : FormData)
  | createStep3 (session : Nat) (jobApplication : NttApplication) (recordIsCreated : Bool)
  | changeNir (jobSeeker : Nat) (nir : Text)

/-- `IntegrityError`. -/
inductive DatabaseError where
  | integrity
  deriving DecidableEq

namespace NttState

variable (s : NttState)

/-- `set_session_ntt`, and the removal of the key. -/
def setSessionNtt (session : Nat) (jobApplication : NttApplication) (ntt : Option Text) : NttState :=
  { s with session := fun i company jobSeeker =>
      if i = session ∧ company = jobApplication.toCompany ∧ jobSeeker = jobApplication.jobSeeker then ntt
      else s.session i company jobSeeker }

/-- Another job seeker has the number. -/
def usedByOther (jobSeeker : Nat) (ntt : Text) : Bool :=
  s.records.entries.any fun entry => entry.2.jobSeeker ≠ jobSeeker && entry.2.ntt = some ntt

/-- `employee_record.save`, which the constraint can refuse. -/
def save (pk : Nat) (row : NttRow) : Except DatabaseError NttState :=
  if nttConstraint row.ntt then .ok { s with records := s.records.insert pk row } else .error .integrity

/-- The first step. A form that is not valid is displayed again. -/
def create (session : Nat) (jobApplication : NttApplication) (data : FormData) : NttState :=
  match NewEmployeeRecordJobSeekerForm.ntt (s.nir jobApplication.jobSeeker) jobApplication.siren
      (s.usedByOther jobApplication.jobSeeker) data with
  | none => s
  | some ntt =>
      let s := { s with nir := Function.update s.nir jobApplication.jobSeeker data.nir }
      if ntt ≠ [] then s.setSessionNtt session jobApplication (some ntt) else s

/-- The employee record of the third step. `recordIsCreated` says whether `from_job_application` gives one. -/
def getOrCreateRecord (jobApplication : NttApplication) (recordIsCreated : Bool) : Except DatabaseError NttState :=
  if (s.records.lookup jobApplication.pk).isNone && recordIsCreated then
    s.save jobApplication.pk ⟨jobApplication.jobSeeker, none⟩
  else .ok s

/-- The end of the third step: the number of the session is moved to the employee record. -/
def retrieveNtt (session : Nat) (jobApplication : NttApplication) : Except DatabaseError NttState :=
  match s.records.lookup jobApplication.pk, s.session session jobApplication.toCompany jobApplication.jobSeeker with
  | some row, some ntt =>
      if isNttRequired (s.nir jobApplication.jobSeeker) && ntt ≠ [] then
        (s.save jobApplication.pk { row with ntt := some ntt }).map fun s =>
          s.setSessionNtt session jobApplication none
      else .ok s
  | _, _ => .ok s

/-- The third step, when its form is valid. -/
def createStep3 (session : Nat) (jobApplication : NttApplication) (recordIsCreated : Bool) :
    Except DatabaseError NttState := do
  (← s.getOrCreateRecord jobApplication recordIsCreated).retrieveNtt session jobApplication

def handle : NttRequest → Except DatabaseError NttState
  | .create session jobApplication data => .ok (s.create session jobApplication data)
  | .createStep3 session jobApplication recordIsCreated => s.createStep3 session jobApplication recordIsCreated
  | .changeNir jobSeeker nir => .ok { s with nir := Function.update s.nir jobSeeker nir }

/-- A request that raises changes nothing. -/
def step (request : NttRequest) : Option NttState := (s.handle request).toOption

end NttState

/-! ## The person part of the payloads -/

/-- What the serializers read of an employee record and of its job seeker. -/
structure Person where
  title : Option Title
  nir : Text
  ntt : Option Text
  aspUid : Text
  hasBirthCountry : Bool
  deriving DecidableEq

/-- The values that `nir[0] == 1` compares. A text is equal to no integer. -/
inductive PyValue where
  | str (value : Text)
  | int (value : Int)
  deriving DecidableEq

/-- `civilite` and `salarieNIR`. -/
structure PersonData where
  civilite : Option Title
  salarieNIR : Text
  deriving DecidableEq

/-! ## `_PersonSerializer` -/

namespace PersonSerializer

def getCivilite (p : Person) : Option Title :=
  match p.title, p.nir with
  | some title, _ => some title
  | none, c :: _ => some (if PyValue.str [c] = PyValue.int 1 then .m else .mme)
  | none, [] => none

def getSalarieNIR (p : Person) : Text := if isNttRequired p.nir then p.ntt.getD [] else p.nir

def data (p : Person) : PersonData := ⟨getCivilite p, getSalarieNIR p⟩

end PersonSerializer

/-! ## `_StaticPersonSerializer` -/

namespace StaticPersonSerializer

def getCivilite (p : Person) : Title := (PersonSerializer.getCivilite p).getD .m

def getSalarieNIR (p : Person) : Text :=
  if PersonSerializer.getSalarieNIR p ≠ [] then PersonSerializer.getSalarieNIR p
  else
    -- The SIREN of the PDI, and a number of 30 characters.
    (if getCivilite p = .m then '1' else '2') :: ['1', '3', '0', '0', '3', '0', '1', '3', '3'] ++ p.aspUid

def data (p : Person) : PersonData := ⟨some (getCivilite p), getSalarieNIR p⟩

end StaticPersonSerializer

/-! ## `personnePhysique` -/

/-- `EmployeeRecordSerializer`. -/
def EmployeeRecordSerializer.personnePhysique (p : Person) : PersonData := PersonSerializer.data p

/-- `EmployeeRecordUpdateNotificationSerializer`. -/
def EmployeeRecordUpdateNotificationSerializer.getPersonnePhysique (p : Person) : PersonData :=
  if !p.hasBirthCountry || (isNttRequired p.nir && (p.ntt.getD []).isEmpty) then StaticPersonSerializer.data p
  else PersonSerializer.data p

/-! ## Coherence -/

/-- The first character is that of a man. -/
def DenotesMan (identifier : Text) : Prop := ∃ c ∈ identifier.head?, c ∈ ['1', '3', '7']

def DenotesWoman (identifier : Text) : Prop := ∃ c ∈ identifier.head?, c ∈ ['2', '4', '8']

/-- The civility is that of the identifier. -/
structure PersonData.Coherent (d : PersonData) : Prop where
  man : d.civilite = some .m ↔ DenotesMan d.salarieNIR
  woman : d.civilite = some .mme ↔ DenotesWoman d.salarieNIR

/-- What the columns accept: `validate_nir` for the NIR, and `employee_record_ntt_regex` for the NTT. -/
structure Person.Valid (mapping : CaseMapping) (p : Person) : Prop where
  nir : p.nir = [] ∨ p.nir.length ≤ 15 ∧ (validateNir mapping p.nir).isOk
  ntt : nttConstraint p.ntt

/-- The title is absent, or `clean_nir_title_birthdate_fields` accepts it with the NIR. -/
def Person.TitleAgrees (p : Person) : Prop := (cleanNirTitleBirthdateFields p.nir p.title none).isOk

/-- When the person part of a record is coherent. Without a title, the civility that is sent is that of a woman as soon
as there is a NIR. -/
def Person.RecordCondition (p : Person) : Prop :=
  if isNttRequired p.nir then
    match p.title, p.ntt with
    | some title, some ntt => title = .m ↔ ntt.head? = some '1'
    | none, some ntt => p.nir ≠ [] ∧ ntt.head? = some '2'
    | title, none => title = none ∧ p.nir = []
  else p.title ≠ none ∨ p.nir.head? ∈ [some '2', some '4']

/-- When that of a notification is. It has default values when the country of birth or the identifier is missing. -/
def Person.NotificationCondition (p : Person) : Prop :=
  (isNttRequired p.nir ∧ p.ntt = none) ∨ p.RecordCondition ∨
    (p.hasBirthCountry = false ∧ p.title = none ∧ p.nir = [] ∧ ∃ ntt ∈ p.ntt, ntt.head? = some '1')

end Itou.EmployeeRecords
