import Itou.Addresses.Lemmas.Format
import Itou.Addresses.Lemmas.Geolocation
import Itou.Addresses.Lemmas.Writes

/-!
# The address of a user, over whole runs, and the HEXA address of an answer
-/

namespace Itou.Addresses

open Itou.Lib

/-- Over any number of writes, the departments follow the post codes and the coordinates follow the addresses exactly
when each write is careful. -/
theorem laws_iff_careful (s : Users) (hs : s.Laws) (writes : List (Nat × Write)) :
    AllStates Users.step Users.Laws s writes ↔ AllSteps Users.step Users.Careful s writes :=
  allStates_iff_allSteps (J := fun _ => True) (fun _ _ _ _ _ _ => trivial)
    (fun _ _ _ _ hlaws h => laws_step_iff hlaws h) trivial hs

/-- A user of Paris, whose address was never geocoded. -/
def parisian : Record where
  row :=
    { addressLine1 := ['1', ' ', 'q', 'u', 'a', 'i'], addressLine2 := [], postCode := ['7', '5', '0', '1', '0'],
      city := ['P', 'a', 'r', 'i', 's'], department := ['7', '5'], coords := none, geocodingScore := none }
  geocodings := []

def parisians : Users := AList.singleton 1 parisian

theorem parisians_laws : parisians.Laws := by
  intro r hr
  obtain rfl : r = parisian := List.mem_singleton.mp hr
  exact ⟨by decide, fun g hg => by cases hg⟩

/-- The session of a wizard in which the user has moved to Marseille. -/
def movedToMarseille : SessionAddress := ⟨none, none, some ['1', '3', '0', '0', '1'], some ['M', 'a', 'r', 's']⟩

/-- The last step of the wizard stores the new post code and not its department. -/
theorem wizard_keeps_old_department :
    (parisian.updateWizardEnd true movedToMarseille (some ⟨1, 9⟩) true).row.postCode = ['1', '3', '0', '0', '1'] ∧
      (parisian.updateWizardEnd true movedToMarseille (some ⟨1, 9⟩) true).row.department = ['7', '5'] ∧
      ¬ AllStates Users.step Users.Laws parisians
        [(1, .updateWizardEnd true movedToMarseille (some ⟨1, 9⟩) true)] := by
  refine ⟨by decide, by decide, fun h => ?_⟩
  obtain ⟨-, h⟩ := h
  have hlaw : (parisian.updateWizardEnd true movedToMarseille (some ⟨1, 9⟩) true).Law :=
    AllStates.head h _ (List.mem_singleton.mpr rfl)
  exact absurd hlaw.department (by decide)

/-- The profile page stores both, and the coordinates of the new address. -/
theorem profile_page_careful : AllStates Users.step Users.Laws parisians
    [(1, .addressForm ⟨['2', ' ', 'r', 'u', 'e'], [], ['1', '3', '0', '0', '1'], ['M', 'a', 'r', 's'], none, [],
      .fallback⟩ (some ⟨1, 9⟩) true)] := by
  refine (laws_iff_careful parisians parisians_laws _).mpr ⟨fun r hr => ?_, trivial⟩
  obtain rfl : parisian = r := Option.some.inj hr
  intro hfalse
  cases hfalse

/-- The answer for a lane of Brest that has no lane type. -/
def kerbolVihan : Properties where
  score := .value 9
  housenumber := .value ['3']
  street := .value ['K', 'e', 'r', 'b', 'o', 'l', ' ', 'V', 'i', 'h', 'a', 'n']
  name := .value ['3', ' ', 'K', 'e', 'r', 'b', 'o', 'l', ' ', 'V', 'i', 'h', 'a', 'n']
  postcode := .value ['2', '9', '2', '0', '0']
  citycode := .value ['2', '9', '0', '1', '9']
  city := .value ['B', 'r', 'e', 's', 't']

def brest : Environment where
  casing := .ascii
  unidecode := id
  callBanGeocodingApi _ _ := some ⟨some kerbolVihan, some 1⟩
  postCodes _ := none

def kerbolVihanAddress : AddressObject where
  geocodingAddress := some ['3', ' ', 'K', 'e', 'r', 'b', 'o', 'l', ' ', 'V', 'i', 'h', 'a', 'n']
  postCode := ['2', '9', '2', '0', '0']
  addressLine2 := []

/-- Scores in thousandths. -/
def thousandths : Scale Nat := ⟨0, 800, by decide⟩

/-- Two companies without coordinates, in Paris and in Lyon. -/
def unlocated : Reading Nat Text where
  rows := [⟨1, ['q', 'u', 'a', 'i'], ['7', '5', '0', '1', '0'], none, none, none⟩,
    ⟨2, ['r', 'u', 'e'], ['6', '9', '0', '0', '1'], none, none, none⟩]
  pks := by decide

/-- The address of the first company has been emptied. -/
def emptied : Reading Nat Text where
  rows := [⟨1, [], ['7', '5', '0', '1', '0'], none, none, none⟩,
    ⟨2, ['r', 'u', 'e'], ['6', '9', '0', '0', '1'], none, none, none⟩]
  pks := by decide

/-- The label of an address is its line, and its post code stands for its point. -/
def placeOf (address : Text × Text) : GeoResult Nat Text := ⟨some 950, address.1, address.2⟩

end Itou.Addresses
