import Itou.Addresses.Models
import Itou.Lib.Queries

/-!
# Geocoding of a queryset

`geolocate_qs` pairs the objects of a queryset with the rows of an answer by their positions. The queryset is read three
times: for the objects, for the header of the request and for its body. Others may change the rows in between.
-/

namespace Itou.Addresses

open Itou.Lib

/-- The scores, with `0.0` and `BAN_API_RELIANCE_SCORE`. -/
structure Scale (σ : Type) [LinearOrder σ] where
  zero : σ
  reliance : σ
  zero_lt_reliance : zero < reliance

/-- The columns that `geolocate_qs` reads and writes. -/
structure Place (σ π : Type) where
  pk : Nat
  addressLine1 : Text
  postCode : Text
  coords : Option π
  geocodingScore : Option σ
  banApiResolvedAddress : Option Text
  deriving DecidableEq

/-- What the queryset selects when it is read. -/
structure Reading (σ π : Type) where
  rows : List (Place σ π)
  pks : (rows.map (·.pk)).Nodup

/-- A row of the answer. The score is missing when no address was found. -/
structure GeoResult (σ π : Type) where
  resultScore : Option σ
  resultLabel : Text
  point : π

section

variable {σ π : Type} [LinearOrder σ] (scale : Scale σ)

/-- The address line and the post code, which the request sends. -/
def Place.address (obj : Place σ π) : Text × Text := (obj.addressLine1, obj.postCode)

/-- `non_geolocated_qs`. -/
def Place.isNonGeolocated (obj : Place σ π) : Bool :=
  obj.coords.isNone || obj.geocodingScore.all fun score => score < scale.reliance

/-- `localizable_qs`. -/
def Reading.localizable (reading : Reading σ π) : List (Place σ π) :=
  orderBy (·.pk) (reading.rows.filter fun obj =>
    obj.isNonGeolocated scale && !(obj.addressLine1.isEmpty || obj.postCode.isEmpty))

inductive GeolocateError where
  /-- `addresses[0]` of an empty queryset. -/
  | indexError
  deriving DecidableEq

/-- `_addresses_to_csv`: the addresses sent. The queryset is read for its first row, and then as a whole. -/
def addressesToCsv (header body : Reading σ π) : Except GeolocateError (List (Text × Text)) :=
  if header.localizable scale = [] then .error .indexError else .ok ((body.localizable scale).map Place.address)

/-- `batch`. -/
def batch (answer : Text × Text → GeoResult σ π) (header body : Reading σ π) :
    Except GeolocateError (List (GeoResult σ π)) :=
  (addressesToCsv scale header body).map (List.map answer)

/-- `float(geo_result["result_score"] or 0.0)`. -/
def GeoResult.score (geoResult : GeoResult σ π) : σ := geoResult.resultScore.getD scale.zero

/-- The new score is reliable, and no lower than the current one. -/
def Place.isImproved (obj : Place σ π) (geoResult : GeoResult σ π) : Bool :=
  scale.reliance ≤ geoResult.score scale &&
    !(obj.geocodingScore.any fun score => score ≠ scale.zero && geoResult.score scale < score)

def Place.geolocated (obj : Place σ π) (geoResult : GeoResult σ π) : Place σ π :=
  { obj with
    coords := some geoResult.point
    geocodingScore := some (geoResult.score scale)
    banApiResolvedAddress := some geoResult.resultLabel }

/-- `geolocate_qs`: the objects that it yields. `zip` asks for an answer once it has a first object. -/
def geolocateQs (answer : Text × Text → GeoResult σ π) (objects header body : Reading σ π) :
    Except GeolocateError (List (Place σ π)) :=
  if objects.localizable scale = [] then .ok []
  else (batch scale answer header body).map fun geoResults =>
    (((objects.localizable scale).zip geoResults).filter fun e => e.1.isImproved scale e.2).map fun e =>
      e.1.geolocated scale e.2

/-- The command yields the objects that their own answers improve, each with its own answer. -/
def OwnPlaces (answer : Text × Text → GeoResult σ π) (objects header body : Reading σ π) : Prop :=
  geolocateQs scale answer objects header body =
    .ok (((objects.localizable scale).filter fun obj => obj.isImproved scale (answer obj.address)).map fun obj =>
      obj.geolocated scale (answer obj.address))

/-- The addresses of the objects are the first ones that are sent. -/
def SameAddresses (objects header body : Reading σ π) : Prop :=
  objects.localizable scale = [] ∨ header.localizable scale ≠ [] ∧
    (objects.localizable scale).map Place.address <+: (body.localizable scale).map Place.address

variable {scale} {objects header body : Reading σ π}

end

end Itou.Addresses
