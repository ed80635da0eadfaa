import Itou.Addresses.Models
import Itou.Lib.Runs

/-!
# Views that write the address of a user

The last step of the update wizard, that of the creation wizard, the address form of the profile pages and of the
acceptance, and any other `User.save`. The service that geocodes answers as it likes.
-/

namespace Itou.Addresses

open Itou.Lib

/-! ## The update wizard -/

/-- What the key `user` of the session holds of the address. -/
structure SessionAddress where
  addressLine1 : Option Text
  addressLine2 : Option Text
  postCode : Option Text
  city : Option Text
  deriving DecidableEq

def SessionAddress.empty : SessionAddress := ⟨none, none, none, none⟩

section Wizard

variable (row : UserRow) (session : SessionAddress)

/-- The instance of `UpdateJobSeekerStepEndView`, after `setup`. -/
def UserRow.withSession : UserRow :=
  { row with
    addressLine1 := session.addressLine1.getD row.addressLine1
    addressLine2 := session.addressLine2.getD row.addressLine2
    postCode := session.postCode.getD row.postCode
    city := session.city.getD row.city }

/-- `updated_user_fields`: the values of the session that differ, and `last_checked_at`. -/
def updatedUserFields : List Field :=
  (if session.addressLine1.any (· ≠ row.addressLine1) then [.addressLine1] else []) ++
    (if session.addressLine2.any (· ≠ row.addressLine2) then [.addressLine2] else []) ++
    (if session.postCode.any (· ≠ row.postCode) then [.postCode] else []) ++
    (if session.city.any (· ≠ row.city) then [.city] else []) ++ [.notAddress]

end Wizard

/-- `UpdateJobSeekerStepEndView`, with the answer of the service. `accepted` tells whether the validations of
`User.save` pass. -/
def Record.updateWizardEnd (r : Record) (canEdit : Bool) (session : SessionAddress) (answer : Option Geocoding)
    (accepted : Bool) : Record :=
  let session := if canEdit then session else SessionAddress.empty
  let self := r.row.withSession session
  let fields := updatedUserFields r.row session
  if .addressLine1 ∈ fields ∨ .postCode ∈ fields then
    -- `geocode_address` fails without the service when a part of the address is empty.
    match self.geocodingAddress.bind fun _ => answer with
    | some g =>
        let r := r.geocoded self.address (some g)
        if accepted then r.save (self.withGeocoding g) (some (fields ++ [.coords, .geocodingScore])) else r
    | none =>
        let r := r.geocoded self.address none
        if accepted then r.save self (some fields) else r
  else if accepted then r.save self (some fields)
  else r

/-! ## The creation wizard -/

/-- `CreateJobSeekerStepEndForSenderView`, once the job seeker is created. It is saved again when it is geocoded. -/
def Record.createdBySender (self : UserRow) (answer : Option Geocoding) : Record :=
  let row := self.save self none
  let r : Record := ⟨row, []⟩
  match row.geocodingAddress.bind fun _ => answer with
  | some g => (r.geocoded row.address (some g)).save (row.withGeocoding g) none
  | none => r.geocoded row.address none

/-! ## `JobSeekerAddressForm` -/

inductive FillMode where
  | banApi
  | fallback
  | unknown
  deriving DecidableEq

/-- The data of the form. `inseeCity` is the name of the city that `insee_code` designates, if it is filled. -/
structure AddressData where
  addressLine1 : Text
  addressLine2 : Text
  postCode : Text
  city : Text
  inseeCity : Option Text
  banApiResolvedAddress : Text
  fillMode : FillMode
  deriving DecidableEq

/-- `posted_address`. -/
def AddressData.postedAddress (data : AddressData) : Text :=
  (if data.addressLine1 = [] then [] else data.addressLine1 ++ [',', ' ']) ++
    (data.postCode ++ [' '] ++ data.inseeCity.getD data.city)

/-- The instance of the form, once the fields are cleaned. -/
def UserRow.withData (row : UserRow) (data : AddressData) : UserRow :=
  { row with
    addressLine1 := data.addressLine1
    addressLine2 := data.addressLine2
    postCode := data.postCode
    city := data.inseeCity.getD data.city }

/-- `clean` asks for a geocoding. In the fallback mode, the posted address is compared with that of the instance, whose
city is already that of `insee_code`. -/
def AddressData.geocodes (data : AddressData) (row : UserRow) : Bool :=
  match data.fillMode with
  | .banApi => data.banApiResolvedAddress ≠ []
  | .fallback => some data.postedAddress ≠ { row with city := data.inseeCity.getD row.city }.geocodingAddress
  | .unknown => false

/-- The form is posted. It is not saved when it is not valid for another reason than the geocoding, and by the views
that only read its data. The label that the user picks is geocoded for the address that is posted with it. -/
def Record.addressForm (r : Record) (data : AddressData) (answer : Option Geocoding) (saved : Bool) : Record :=
  let self := r.row.withData data
  if data.geocodes r.row then
    let r := r.geocoded self.address answer
    match answer with
    | some g => if saved then r.save (self.withGeocoding g) none else r
    | none => r
  else if saved then r.save self none
  else r

/-! ## Writes -/

inductive Write where
  /-- Any `User.save`, of an instance with any values. -/
  | save (self : UserRow) (updateFields : Option (List Field))
  | updateWizardEnd (canEdit : Bool) (session : SessionAddress) (answer : Option Geocoding) (accepted : Bool)
  | addressForm (data : AddressData) (answer : Option Geocoding) (saved : Bool)
  | createJobSeeker (self : UserRow) (answer : Option Geocoding)
  deriving DecidableEq

/-- A write of a user that exists. -/
def Record.apply (r : Record) : Write → Record
  | .save self updateFields => r.save self updateFields
  | .updateWizardEnd canEdit session answer accepted => r.updateWizardEnd canEdit session answer accepted
  | .addressForm data answer saved => r.addressForm data answer saved
  | .createJobSeeker _ _ => r

abbrev Users := Table Record

/-- A write of the user of a given key. `User.save` creates a user that does not exist. -/
def Users.step (s : Users) (label : Nat × Write) : Option Users :=
  match s.lookup label.1, label.2 with
  | some _, .createJobSeeker _ _ => none
  | some r, write => some (s.insert label.1 (r.apply write))
  | none, .createJobSeeker self answer => some (s.insert label.1 (.createdBySender self answer))
  | none, .save self none => some (s.insert label.1 ⟨self.save self none, []⟩)
  | none, _ => none

def Users.Laws (s : Users) : Prop := ∀ r ∈ s.rows, r.Law

/-! ## Careful writes -/

section Careful

variable (r : Record)

/-- A save writes the post code and the department together, or keeps the department of the post code. -/
def SavesDepartment (self : UserRow) (updateFields : Option (List Field)) : Prop :=
  ∀ fields ∈ updateFields, (.postCode ∈ fields ↔ .department ∈ fields) ∨
    departmentFromPostcode self.postCode = departmentFromPostcode r.row.postCode

/-- The city is the only part of the address that the session changes. -/
def ChangesCityOnly (session : SessionAddress) : Prop :=
  .addressLine1 ∉ updatedUserFields r.row session ∧ .postCode ∉ updatedUserFields r.row session ∧
    .city ∈ updatedUserFields r.row session

/-- A write after which the department and the coordinates are right. -/
def Record.Careful : Write → Prop
  | .save self updateFields => SavesDepartment r self updateFields ∧ r.Fits (r.row.save self updateFields)
  | .updateWizardEnd canEdit session _ accepted => canEdit = true → accepted = true →
      (∀ postCode ∈ session.postCode,
        departmentFromPostcode postCode = departmentFromPostcode r.row.postCode) ∧
      (ChangesCityOnly r session → r.Fits (r.row.withSession session))
  | .addressForm data answer saved =>
      if data.geocodes r.row then
        -- The answer of the service is thrown away.
        saved = false → (r.row.withData data).address = r.row.address → ∀ g ∈ answer,
          r.row.coords = some g.coords ∧ r.row.geocodingScore = some g.score
      else saved = true → r.Fits (r.row.withData data)
  | .createJobSeeker _ _ => True

end Careful

/-- A write that creates a user is careful. -/
def Users.Careful (s : Users) (label : Nat × Write) : Prop := ∀ r ∈ s.lookup label.1, r.Careful label.2

end Itou.Addresses
