import Itou.Lib.Tables
import Itou.Lib.Texts

/-!
# Social security numbers

The validator `validate_nir`, and how each form cleans the number that it is given. A form that is not valid gives `none`.

What a number is made of, the accessors of `NIR`, and the consistency of a number with the title and the date of birth.
-/

namespace Itou.Nir

open Itou.Lib

abbrev Text := List Char

/-- `LackOfNIRReason`. -/
inductive LackOfNIRReason where
  | noNir
  | nirAssociatedToOther
  deriving DecidableEq

/-- The columns of `users.JobSeekerProfile` that hold the number. `none` is the empty reason. -/
structure JobSeekerProfile where
  nir : Text
  lackOfNirReason : Option LackOfNIRReason
  deriving DecidableEq

/-- The table `users_jobseekerprofile`. The primary key is that of the user. -/
abbrev Profiles := Table JobSeekerProfile

/-- `User.objects.filter(jobseeker_profile__nir=nir).first()`. -/
def Profiles.findByNir (profiles : Profiles) (nir : Text) : Option Nat :=
  (profiles.entries.find? fun entry => entry.2.nir = nir).map Sigma.fst

/-- Another profile than `pk` has the number. -/
def Profiles.usedByOther (profiles : Profiles) (pk : Option Nat) (nir : Text) : Bool :=
  profiles.entries.any fun entry => some entry.1 ≠ pk && entry.2.nir = nir

/-- `jobseekerprofile_lack_of_nir_reason_or_nir` and `jobseekerprofile_unique_nir_if_not_empty`. -/
def Profiles.constraints (profiles : Profiles) (pk : Option Nat) (profile : JobSeekerProfile) : Bool :=
  (profile.lackOfNirReason = none || profile.nir = []) && (profile.nir = [] || !profiles.usedByOther pk profile.nir)

/-! ## The validator -/

inductive NirError where
  | tooLong
  | tooShort
  | notValid
  | fictitious
  /-- `int` raises. -/
  | valueError
  deriving DecidableEq

/-- `[0-9]`. -/
def isDigit (c : Char) : Bool := c ∈ ['0', '1', '2', '3', '4', '5', '6', '7', '8', '9']

/-- `nir_regex`, on a text of 15 characters. -/
def nirRegex : Text → Bool
  | [sex, y₁, y₂, m₁, m₂, d₁, d₂, c₁, c₂, c₃, o₁, o₂, o₃, k₁, k₂] =>
      sex ∈ ['1', '2', '3', '4', '7', '8'] && [y₁, y₂, m₁, m₂].all isDigit &&
        ((d₁ = '2' && d₂ ∈ ['A', 'B']) || (isDigit d₁ && isDigit d₂)) &&
        [c₁, c₂, c₃, o₁, o₂, o₃, k₁, k₂].all isDigit
  | _ => false

variable (mapping : CaseMapping)

/-- `validate_nir`. -/
def validateNir (nir : Text) : Except NirError Unit :=
  -- The digits of the departments of Corsica.
  let nir := replacePair '2' 'B' '1' '8' (replacePair '2' 'A' '1' '9' (upper mapping (removeSpaces nir)))
  if 15 < nir.length then .error .tooLong
  else if nir.length < 15 then .error .tooShort
  else if !nirRegex nir then .error .notValid
  else
    match int? ((nir.drop 3).take 2), int? (nir.drop 13), int? (nir.take 13) with
    | some month, some controlKey, some number =>
        if (12 < month ∧ month < 20) ∨ (42 < month ∧ month < 50) then .error .notValid
        else if controlKey ≠ 97 - number % 97 then .error .notValid
        else if nir = ['2', '6', '9', '0', '5', '4', '9', '5', '8', '8', '1', '5', '7', '8', '0'] then
          .error .fictitious
        else .ok ()
    | _, _, _ => .error .valueError

/-- `CharField.clean` with `strip=True`, a `max_length` and `validators=[validate_nir]`. -/
def charField (required : Bool) (maxLength : Nat) (value : Text) : Option Text :=
  let value := strip value
  if value = [] then if required then none else some []
  else if value.length ≤ maxLength ∧ (validateNir mapping value).isOk then some value
  else none

/-! ## The forms -/

/-- `JobSeekerSignupForm.clean_nir`. -/
def JobSeekerSignupForm.cleanNir (profiles : Profiles) (nir : Text) : Option Text :=
  let nir := removeSpaces nir
  if (profiles.findByNir nir).isSome then none else some nir

/-- The number of a `JobSeekerSignupForm`. -/
def JobSeekerSignupForm.nir (profiles : Profiles) (typed : Text) : Option Text :=
  (charField mapping true 21 typed).bind (JobSeekerSignupForm.cleanNir profiles)

/-- The number of a `JobSeekerSignupWithOptionalNirForm`, which reads an empty one. -/
def JobSeekerSignupWithOptionalNirForm.nir (profiles : Profiles) : Option Text :=
  (charField mapping false 21 []).bind fun nir =>
    if removeSpaces nir = [] then some [] else JobSeekerSignupForm.cleanNir profiles nir

/-- `CheckJobSeekerNirForm`, with the job seeker it is for: the number, and what `get_job_seeker` answers. -/
def CheckJobSeekerNirForm.clean (profiles : Profiles) (jobSeeker : Option Nat) (typed : Text) :
    Option (Text × Option Nat) :=
  (charField mapping true 21 typed).bind fun nir =>
    let nir := removeSpaces (upper mapping nir)
    let existingAccount := profiles.findByNir nir
    match jobSeeker with
    | some jobSeeker => if existingAccount.isSome then none else some (nir, some jobSeeker)
    | none => some (nir, existingAccount)

/-- What the fields `nir`, `lack_of_nir` and `lack_of_nir_reason` are given. -/
structure NirData where
  nir : Text
  lackOfNir : Bool
  lackOfNirReason : Option LackOfNIRReason

/-- `JobSeekerNIRUpdateMixin.clean_nir` and `clean`, with the initial number. -/
def JobSeekerNIRUpdateMixin.clean (initial : Text) (data : NirData) : Option JobSeekerProfile :=
  -- The field is disabled when the job seeker has a number, and when the box is checked.
  (charField mapping false 21 (if initial ≠ [] ∨ data.lackOfNir then initial else data.nir)).bind fun nir =>
    let nir := removeSpaces (upper mapping nir)
    if data.lackOfNir then
      if data.lackOfNirReason.isSome then some { nir := [], lackOfNirReason := data.lackOfNirReason }
      else none
    else if nir ≠ [] then some { nir, lackOfNirReason := none }
    else none

/-- `JobSeekerProfileFieldsMixin._post_clean`: the validators of the columns, and the constraints. -/
def JobSeekerProfileFieldsMixin.postClean (profiles : Profiles) (pk : Option Nat) (profile : JobSeekerProfile) :
    Option JobSeekerProfile :=
  if (profile.nir = [] ∨ profile.nir.length ≤ 15 ∧ (validateNir mapping profile.nir).isOk) ∧
      profiles.constraints pk profile then some profile
  else none

/-- `NewEmployeeRecordJobSeekerForm`, of which `lack_of_nir_reason` is disabled. -/
def NewEmployeeRecordJobSeekerForm.clean (initial : JobSeekerProfile) (data : NirData) : Option JobSeekerProfile :=
  (charField mapping false 21 (if initial.nir ≠ [] ∨ data.lackOfNir then initial.nir else data.nir)).bind fun nir =>
    if data.lackOfNir = false ∧ nir = [] then none
    else some { nir, lackOfNirReason := if nir ≠ [] then none else initial.lackOfNirReason }

/-! ## Canonical numbers -/

/-- The number in upper case and without spaces. -/
def canonical (mapping : CaseMapping) (nir : Text) : Text := removeSpaces (upper mapping nir)

/-- No space, upper case, 15 characters, accepted by `validate_nir`. -/
structure IsCanonical (mapping : CaseMapping) (nir : Text) : Prop where
  noSpace : ' ' ∉ nir
  upperCase : upper mapping nir = nir
  length : nir.length = 15
  accepted : (validateNir mapping nir).isOk

/-! ## `NIR` -/

/-- `iso_standards.Sex`. -/
inductive Sex where
  | male
  | female
  | notKnown
  deriving DecidableEq

/-- `Title`. -/
inductive Title where
  | m
  | mme
  deriving DecidableEq

/-- `NIR.sex`. `none` when it raises. -/
def sex : Text → Option Sex
  | [] => none
  | c :: _ =>
      if c ∈ ['1', '3', '7'] then some .male
      else if c ∈ ['2', '4', '8'] then some .female
      else if c = '9' then none
      else some .notKnown

/-- `NIR.birth_year`. -/
def birthYear (value : Text) : Option Nat := int? ((value.drop 1).take 2)

/-- `NIR.birth_month`. -/
def birthMonth (value : Text) : Option Nat := int? ((value.drop 3).take 2)

inductive ConsistencyError where
  | inconsistentNirTitle
  | inconsistentNirBirthdate
  /-- An accessor raises. -/
  | valueError
  deriving DecidableEq

/-- The sex of the number is not that of the title. -/
def Sex.contradicts : Sex → Title → Bool
  | .male, title => title ≠ .m
  | .female, title => title ≠ .mme
  | .notKnown, _ => false

/-- `clean_nir_title_birthdate_fields`. Of the date of birth, it reads the last two digits of the year, and the month. -/
def cleanNirTitleBirthdateFields (nir : Text) (title : Option Title) (birthdate : Option (Nat × Nat)) :
    Except ConsistencyError Unit := do
  if nir = [] then return
  if let some title := title then
    let some sex := sex nir | throw .valueError
    if sex.contradicts title then throw .inconsistentNirTitle
  if let some birthdate := birthdate then
    if nir.head? ∈ [some '1', some '2'] then
      let some year := birthYear nir | throw .valueError
      let some month := birthMonth nir | throw .valueError
      -- A month that is not one of the calendar stands for an unknown one.
      if 1 ≤ month ∧ month ≤ 12 then
        if (year, month) ≠ birthdate then throw .inconsistentNirBirthdate
      else if year ≠ birthdate.1 then throw .inconsistentNirBirthdate

/-! ## Well-formed numbers -/

/-- The example that the health insurance publishes. -/
def exampleNir : Text := ['2', '6', '9', '0', '5', '4', '9', '5', '8', '8', '1', '5', '7', '8', '0']

/-- What a text of digits stands for. -/
def decimalValue (l : Text) : Nat := l.foldl (fun n c => 10 * n + (c.toNat - '0'.toNat)) 0

/-- Fifteen digits: a sex, a year, a month that is a real or a fictitious one, and a control key that is right. -/
structure IsNumeric (l : Text) : Prop where
  length : l.length = 15
  digits : ∀ c ∈ l, isDigit c
  sex : ∀ c ∈ l.head?, c ∈ ['1', '2', '3', '4', '7', '8']
  month : ¬ (13 ≤ decimalValue ((l.drop 3).take 2) ∧ decimalValue ((l.drop 3).take 2) ≤ 19) ∧
    ¬ (43 ≤ decimalValue ((l.drop 3).take 2) ∧ decimalValue ((l.drop 3).take 2) ≤ 49)
  controlKey : decimalValue (l.drop 13) = 97 - decimalValue (l.take 13) % 97

/-- The number with its department 2A read as 19, and 2B as 18. -/
def withDepartmentDigits (t : Text) : Text :=
  if (t.drop 5).take 2 = ['2', 'A'] then t.take 5 ++ ['1', '9'] ++ t.drop 7
  else if (t.drop 5).take 2 = ['2', 'B'] then t.take 5 ++ ['1', '8'] ++ t.drop 7
  else t

/-- Digits, but for a department of Corsica at the positions 6 and 7, and no example. -/
def IsWellFormed (t : Text) : Prop := IsNumeric (withDepartmentDigits t) ∧ t ≠ exampleNir

/-- The text that `validate_nir` checks: every 2A and 2B is replaced. -/
def withAllDigits (t : Text) : Text := replacePair '2' 'B' '1' '8' (replacePair '2' 'A' '1' '9' t)

/-- A pair 2A or 2B starts at the position `i`, from 0 on. -/
def HasPairAt (t : Text) (i : Nat) : Prop := t[i]? = some '2' ∧ (t[i + 1]? = some 'A' ∨ t[i + 1]? = some 'B')

/-- A pair 2A or 2B is elsewhere than in the department, and the digits of all the pairs make a number. -/
def HasStrayPair (t : Text) : Prop :=
  (∃ i, i ≠ 5 ∧ HasPairAt t i) ∧ IsNumeric (withAllDigits t) ∧ withAllDigits t ≠ exampleNir

/-- `validate_nir` accepts the well-formed numbers and no other text, and what it accepts has accessors that do not
raise once it is normalised. -/
structure ValidatesNir (nir : Text) : Prop where
  accepts : (validateNir mapping nir).isOk ↔ IsWellFormed (upper mapping (removeSpaces nir))
  accessors : (validateNir mapping nir).isOk → ∀ title birthdate,
    cleanNirTitleBirthdateFields (upper mapping (removeSpaces nir)) title birthdate ≠ .error .valueError

end Itou.Nir
