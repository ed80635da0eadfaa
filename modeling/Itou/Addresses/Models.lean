import Itou.Lib.Tables

/-!
# Addresses of the users

The columns of `AddressMixin` on a user, the department that `User.save` derives from the post code, and the coordinates
that a geocoding of the address gives.
-/

namespace Itou.Addresses

open Itou.Lib

abbrev Text := List Char

/-- `department_from_postcode`. -/
def departmentFromPostcode (postCode : Text) : Text :=
  if postCode = [] then []
  else if ['2', '0'].isPrefixOf postCode then
    if [['2', '0', '0'], ['2', '0', '1'], ['2', '0', '7']].any fun p => p.isPrefixOf postCode then ['2', 'A']
    else if [['2', '0', '2'], ['2', '0', '4'], ['2', '0', '6']].any fun p => p.isPrefixOf postCode then ['2', 'B']
    else []
  else if ['9', '7'].isPrefixOf postCode || ['9', '8'].isPrefixOf postCode then postCode.take 3
  else postCode.take 2

/-- What a geocoding gives. Points and scores are only copied, and numbers stand for them. -/
structure Geocoding where
  coords : Nat
  score : Nat
  deriving DecidableEq

/-- The parts of an address that are geocoded. -/
structure Address where
  addressLine1 : Text
  postCode : Text
  city : Text
  deriving DecidableEq

/-- The columns of a row of `users_user` that have to do with the address. -/
structure UserRow where
  addressLine1 : Text
  addressLine2 : Text
  postCode : Text
  city : Text
  department : Text
  coords : Option Nat
  geocodingScore : Option Nat
  deriving DecidableEq

/-- A name in `update_fields`. The other columns of the user are not modelled. -/
inductive Field where
  | addressLine1
  | addressLine2
  | postCode
  | city
  | department
  | coords
  | geocodingScore
  | notAddress
  deriving DecidableEq

namespace UserRow

def address (row : UserRow) : Address := ⟨row.addressLine1, row.postCode, row.city⟩

def withGeocoding (row : UserRow) (g : Geocoding) : UserRow :=
  { row with coords := some g.coords, geocodingScore := some g.score }

/-- `geocoding_address`. -/
def geocodingAddress (row : UserRow) : Option Text :=
  if row.addressLine1 ≠ [] ∧ row.postCode ≠ [] ∧ row.city ≠ [] then
    some (row.addressLine1 ++ [',', ' '] ++ row.postCode ++ [' '] ++ row.city)
  else none

/-- The row, with one column of an instance. -/
def write (self row : UserRow) : Field → UserRow
  | .addressLine1 => { row with addressLine1 := self.addressLine1 }
  | .addressLine2 => { row with addressLine2 := self.addressLine2 }
  | .postCode => { row with postCode := self.postCode }
  | .city => { row with city := self.city }
  | .department => { row with department := self.department }
  | .coords => { row with coords := self.coords }
  | .geocodingScore => { row with geocodingScore := self.geocodingScore }
  | .notAddress => row

/-- `User.save`, of an instance on its row. Without `update_fields` it stores all the columns. -/
def save (row self : UserRow) (updateFields : Option (List Field)) : UserRow :=
  let self := { self with department := departmentFromPostcode self.postCode }
  match updateFields with
  | none => self
  | some fields => fields.foldl (fun row field => self.write row field) row

end UserRow

/-! ## Histories -/

/-- A user, with the geocodings that were asked for it, the last one first. One that failed gave nothing. -/
structure Record where
  row : UserRow
  geocodings : List (Address × Option Geocoding)
  deriving DecidableEq

namespace Record

variable (r : Record)

/-- What the last geocoding of an address gave. -/
def lastGeocoding (a : Address) : Option (Option Geocoding) := (r.geocodings.find? fun e => e.1 = a).map (·.2)

/-- The coordinates of a row are those of its address, if its last geocoding succeeded. -/
def Fits (row : UserRow) : Prop :=
  ∀ g, r.lastGeocoding row.address = some (some g) → row.coords = some g.coords ∧ row.geocodingScore = some g.score

/-- The department follows the post code, and the coordinates follow the address. -/
structure Law : Prop where
  department : r.row.department = departmentFromPostcode r.row.postCode
  coords : r.Fits r.row

def save (self : UserRow) (updateFields : Option (List Field)) : Record :=
  { r with row := r.row.save self updateFields }

def geocoded (a : Address) (answer : Option Geocoding) : Record :=
  { r with geocodings := (a, answer) :: r.geocodings }

end Record

end Itou.Addresses
