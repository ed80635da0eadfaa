import Itou.Nir.Forms

/-!
# The number in the forms of a profile

What the forms that use `JobSeekerNIRUpdateMixin` make of the texts that are posted, and of the number that is recorded.
-/

namespace Itou.Nir

open Itou.Lib

/-! ## What is posted -/

/-- The last text that is posted under each name. -/
structure PostData where
  nir : Option Text
  lackOfNir : Option Text
  lackOfNirReason : Option Text

def LackOfNIRReason.value : LackOfNIRReason → Text
  | .noNir => "NO_NIR".toList
  | .nirAssociatedToOther => "NIR_ASSOCIATED_TO_OTHER".toList

/-- `str.lower`, compared with a text of ASCII letters. -/
def lowerIs (value : Text) (word : String) : Bool := value.map Char.toLower = word.toList

/-- `CheckboxInput.value_from_datadict`. -/
def checkboxInput : Option Text → Bool
  | none => false
  | some value => !lowerIs value "false" && value ≠ []

/-- `BooleanField.to_python`, on what `HiddenInput` is given. -/
def hiddenBoolean : Option Text → Bool
  | none => false
  | some value => !(lowerIs value "false" || lowerIs value "0") && value ≠ []

/-- `TypedChoiceField.clean`. `none` is an error, and `some none` the empty value. -/
def cleanReason : Option Text → Option (Option LackOfNIRReason)
  | none => some none
  | some value =>
      if value = [] then some none
      else if value = LackOfNIRReason.noNir.value then some (some .noNir)
      else if value = LackOfNIRReason.nirAssociatedToOther.value then some (some .nirAssociatedToOther)
      else none

/-- What the three fields are given. The box is hidden when the form starts with a number. -/
def NirData.ofPost (initial : Text) (post : PostData) : Option NirData :=
  (cleanReason post.lackOfNirReason).map fun reason => {
    nir := post.nir.getD []
    lackOfNir := if initial ≠ [] then hiddenBoolean post.lackOfNir else checkboxInput post.lackOfNir
    lackOfNirReason := reason }

/-! ## The forms -/

/-- A profile of the database, which meets `jobseekerprofile_lack_of_nir_reason_or_nir`. -/
structure StoredProfile extends JobSeekerProfile where
  reasonOrNir : lackOfNirReason = none ∨ nir = []

/-- The forms that use the mixin, with the number that `initial` gives them when it has one. -/
inductive NirUpdateForm where
  | editJobSeekerInfoForm
  | jobSeekerPersonalDataForm (initial : Option Text)
  | createOrUpdateJobSeekerStep1Form (initial : Option Text)

namespace NirUpdateForm

/-- `self.initial["nir"]`. -/
def initialNir (stored : JobSeekerProfile) : NirUpdateForm → Text
  | .editJobSeekerInfoForm => stored.nir
  | .jobSeekerPersonalDataForm initial | .createOrUpdateJobSeekerStep1Form initial => initial.getD stored.nir

/-- `JobSeekerPersonalDataForm` has no field for the number of a profile that has one. -/
def deletesFields (stored : JobSeekerProfile) : NirUpdateForm → Bool
  | .jobSeekerPersonalDataForm _ => stored.nir ≠ []
  | .editJobSeekerInfoForm | .createOrUpdateJobSeekerStep1Form _ => false

variable (mapping : CaseMapping)

/-- The pair that is saved, when the form is valid. `accepts` tells if the other fields, and what depends on the number,
are valid too. -/
def save (form : NirUpdateForm) (profiles : Profiles) (pk : Option Nat) (stored : JobSeekerProfile) (post : PostData)
    (accepts : JobSeekerProfile → Bool) : Option JobSeekerProfile :=
  let cleaned := if form.deletesFields stored then some stored
    else (NirData.ofPost (form.initialNir stored) post).bind
      (JobSeekerNIRUpdateMixin.clean mapping (form.initialNir stored))
  (cleaned.filter accepts).bind (JobSeekerProfileFieldsMixin.postClean mapping profiles pk)

/-- What a valid form may save. -/
structure Keeps (stored saved : JobSeekerProfile) : Prop where
  reasonOrNir : saved.nir = [] ∨ saved.lackOfNirReason = none
  kept : stored.nir ≠ [] → saved.nir = stored.nir
  added : stored.nir = [] → saved.nir = [] ∨ ((validateNir mapping saved.nir).isOk ∧
    upper mapping saved.nir = saved.nir ∧ ' ' ∉ saved.nir)
  filled : saved.nir ≠ [] ∨ saved.lackOfNirReason.isSome

/-- The field of the number is cleaned. It is disabled when the form starts with a number, and when the box is ticked. -/
def cleanedNir (initial : Text) (data : NirData) : Option Text :=
  charField mapping false 21 (if initial ≠ [] ∨ data.lackOfNir then initial else data.nir)

/-- When a number is recorded and the form has a field for it: if the fields are valid, the box is not ticked with a
reason, and the number of the field is the recorded one once it is in upper case and without spaces. -/
def LeavesNir (form : NirUpdateForm) (stored : JobSeekerProfile) (post : PostData) : Prop :=
  stored.nir ≠ [] → form.deletesFields stored = false →
    ∀ data ∈ NirData.ofPost (form.initialNir stored) post, ∀ nir ∈ cleanedNir mapping (form.initialNir stored) data,
      if data.lackOfNir then data.lackOfNirReason = none
      else nir = [] ∨ canonical mapping nir = stored.nir

end NirUpdateForm

end Itou.Nir
