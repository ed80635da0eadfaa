import Itou.Addresses.Views

/-!
# What each write stores

`User.save` stores the columns that it is given, and the last step of the update wizard stores the whole session. A write
keeps the laws exactly when it is careful.
-/

namespace Itou.Addresses

open Itou.Lib

/-! ## `User.save` -/

section Save

variable {row self : UserRow} {fields : List Field}

theorem foldl_write (self row : UserRow) (fields : List Field) :
    fields.foldl (fun row field => self.write row field) row =
      { addressLine1 := if .addressLine1 ∈ fields then self.addressLine1 else row.addressLine1
        addressLine2 := if .addressLine2 ∈ fields then self.addressLine2 else row.addressLine2
        postCode := if .postCode ∈ fields then self.postCode else row.postCode
        city := if .city ∈ fields then self.city else row.city
        department := if .department ∈ fields then self.department else row.department
        coords := if .coords ∈ fields then self.coords else row.coords
        geocodingScore := if .geocodingScore ∈ fields then self.geocodingScore else row.geocodingScore } := by
  induction fields generalizing row with
  | nil => simp
  | cons field fields ih =>
      rw [List.foldl_cons, ih]
      cases field <;> simp [UserRow.write]

/-- What a save with `update_fields` stores, column by column. -/
theorem save_some : row.save self (some fields) =
    { addressLine1 := if .addressLine1 ∈ fields then self.addressLine1 else row.addressLine1
      addressLine2 := if .addressLine2 ∈ fields then self.addressLine2 else row.addressLine2
      postCode := if .postCode ∈ fields then self.postCode else row.postCode
      city := if .city ∈ fields then self.city else row.city
      department := if .department ∈ fields then departmentFromPostcode self.postCode else row.department
      coords := if .coords ∈ fields then self.coords else row.coords
      geocodingScore := if .geocodingScore ∈ fields then self.geocodingScore else row.geocodingScore } :=
  foldl_write _ row fields

/-- A save keeps the department right exactly when it writes it with the post code, or does not change it. -/
theorem department_save_iff {r : Record} (h : r.row.department = departmentFromPostcode r.row.postCode)
    (self : UserRow) (updateFields : Option (List Field)) :
    (r.row.save self updateFields).department = departmentFromPostcode (r.row.save self updateFields).postCode ↔
      SavesDepartment r self updateFields := by
  cases updateFields with
  | none => simp [UserRow.save, SavesDepartment]
  | some fields =>
      simp only [save_some, SavesDepartment, Option.mem_some, forall_eq']
      by_cases hpost : .postCode ∈ fields <;> by_cases hdepartment : .department ∈ fields
      · simp [hpost, hdepartment]
      · simp [hpost, hdepartment, h, eq_comm]
      · simp [hpost, hdepartment]
      · simp [hpost, hdepartment, h]

end Save

/-! ## The update wizard -/

section Wizard

variable {row : UserRow} {session : SessionAddress} {r : Record}

@[simp] theorem mem_updatedUserFields {field : Field} : field ∈ updatedUserFields row session ↔
    match field with
    | .addressLine1 => session.addressLine1.any (· ≠ row.addressLine1)
    | .addressLine2 => session.addressLine2.any (· ≠ row.addressLine2)
    | .postCode => session.postCode.any (· ≠ row.postCode)
    | .city => session.city.any (· ≠ row.city)
    | .notAddress => True
    | _ => False := by
  have hif : ∀ {b : Bool} {f g : Field}, f ∈ (if b then [g] else []) ↔ b = true ∧ f = g := by
    intro b f g
    cases b <;> simp
  simp only [updatedUserFields, List.mem_append, hif]
  cases field <;> simp

theorem ite_any_ne (value : Option Text) (current : Text) :
    (if value.any (· ≠ current) = true then value.getD current else current) = value.getD current := by
  cases value with
  | none => rfl
  | some value =>
      by_cases h : value = current
      · simp [h]
      · simp [h]

/-- The last step stores the whole session: what it leaves out is equal already. -/
theorem save_withSession (row : UserRow) (session : SessionAddress) :
    row.save (row.withSession session) (some (updatedUserFields row session)) = row.withSession session := by
  rw [save_some]
  simp only [mem_updatedUserFields, UserRow.withSession, ite_any_ne, if_false]

theorem save_withSession_geocoding (row : UserRow) (session : SessionAddress) (g : Geocoding) :
    row.save ((row.withSession session).withGeocoding g)
        (some (updatedUserFields row session ++ [.coords, .geocodingScore])) =
      (row.withSession session).withGeocoding g := by
  rw [save_some]
  simp only [List.mem_append, mem_updatedUserFields, UserRow.withSession, UserRow.withGeocoding, List.mem_cons,
    List.not_mem_nil, or_false, reduceCtorEq, ite_any_ne, if_false, if_true, or_self, or_true]

theorem withSession_empty (row : UserRow) : row.withSession .empty = row := rfl

/-- The department of the row that the last step stores. -/
theorem department_withSession_iff (h : row.department = departmentFromPostcode row.postCode) :
    (row.withSession session).department = departmentFromPostcode (row.withSession session).postCode ↔
      ∀ postCode ∈ session.postCode, departmentFromPostcode postCode = departmentFromPostcode row.postCode := by
  cases hpost : session.postCode with
  | none => simp [UserRow.withSession, hpost, h]
  | some postCode => simp [UserRow.withSession, hpost, h, eq_comm]

/-- The address changes when one of its parts does. -/
theorem address_withSession_ne (h : .addressLine1 ∈ updatedUserFields row session ∨
    .postCode ∈ updatedUserFields row session) : (row.withSession session).address ≠ row.address := by
  intro heq
  simp only [UserRow.address, UserRow.withSession, Address.mk.injEq] at heq
  simp only [mem_updatedUserFields] at h
  rcases h with h | h
  · cases hvalue : session.addressLine1 with
    | none => simp [hvalue] at h
    | some value => simp [hvalue] at h heq; exact h heq.1
  · cases hvalue : session.postCode with
    | none => simp [hvalue] at h
    | some value => simp [hvalue] at h heq; exact h heq.2.1

theorem address_withSession_eq (hline : .addressLine1 ∉ updatedUserFields row session)
    (hpost : .postCode ∉ updatedUserFields row session) (hcity : .city ∉ updatedUserFields row session) :
    (row.withSession session).address = row.address := by
  have hsame : ∀ (value : Option Text) (current : Text), ¬ value.any (· ≠ current) = true → value.getD current = current := by
    intro value current hnot
    have hite := ite_any_ne value current
    rwa [if_neg hnot, eq_comm] at hite
  simp only [mem_updatedUserFields] at hline hpost hcity
  simp only [UserRow.address, UserRow.withSession, hsame _ _ hline, hsame _ _ hpost, hsame _ _ hcity]

end Wizard

/-! ## Laws -/

section Laws

variable {r : Record} {row row' : UserRow}

theorem lastGeocoding_geocoded (a b : Address) (answer : Option Geocoding) :
    (r.geocoded a answer).lastGeocoding b = if a = b then some answer else r.lastGeocoding b := by
  by_cases h : a = b
  · simp [Record.lastGeocoding, Record.geocoded, h]
  · simp [Record.lastGeocoding, Record.geocoded, h]

/-- The geocoding of a row fits it. -/
theorem fits_geocoded (row : UserRow) (g : Geocoding) :
    (r.geocoded row.address (some g)).Fits (row.withGeocoding g) := by
  intro g' hg'
  rw [lastGeocoding_geocoded, if_pos (show row.address = (row.withGeocoding g).address from rfl)] at hg'
  simp only [Option.some.injEq] at hg'
  subst hg'
  exact ⟨rfl, rfl⟩

/-- Nothing is said of an address whose geocoding failed. -/
theorem fits_geocoded_none (h : row'.address = row.address) : (r.geocoded row.address none).Fits row' := by
  intro g hg
  rw [lastGeocoding_geocoded, if_pos h.symm] at hg
  simp at hg

theorem fits_geocoded_ne {a : Address} {answer : Option Geocoding} (h : a ≠ row.address) :
    (r.geocoded a answer).Fits row ↔ r.Fits row := by
  simp only [Record.Fits, lastGeocoding_geocoded, if_neg h]

theorem fits_congr (haddress : row'.address = row.address) (hcoords : row'.coords = row.coords)
    (hscore : row'.geocodingScore = row.geocodingScore) : r.Fits row' ↔ r.Fits row := by
  simp only [Record.Fits, haddress, hcoords, hscore]

end Laws

/-! ## One write -/

section OneWrite

variable {r : Record}

theorem law_save_iff (h : r.Law) (self : UserRow) (updateFields : Option (List Field)) :
    (r.save self updateFields).Law ↔ r.Careful (.save self updateFields) := by
  have hdepartment := department_save_iff h.department self updateFields
  exact ⟨fun hlaw => ⟨hdepartment.mp hlaw.department, hlaw.coords⟩, fun hc => ⟨hdepartment.mpr hc.1, hc.2⟩⟩

/-- The row of the last step, when the validations pass. -/
theorem law_withSession_iff (h : r.Law) {session : SessionAddress} {r' : Record}
    (hdepartment : r'.row.department = (r.row.withSession session).department)
    (hpost : r'.row.postCode = (r.row.withSession session).postCode)
    (hfits : r'.Fits r'.row ↔ (ChangesCityOnly r session → r.Fits (r.row.withSession session))) :
    r'.Law ↔ (∀ postCode ∈ session.postCode,
      departmentFromPostcode postCode = departmentFromPostcode r.row.postCode) ∧
      (ChangesCityOnly r session → r.Fits (r.row.withSession session)) := by
  rw [← department_withSession_iff h.department, ← hfits, ← hdepartment, ← hpost]
  exact ⟨fun hlaw => ⟨hlaw.department, hlaw.coords⟩, fun hand => ⟨hand.1, hand.2⟩⟩

theorem law_updateWizardEnd_iff (h : r.Law) (canEdit : Bool) (session : SessionAddress) (answer : Option Geocoding)
    (accepted : Bool) : (r.updateWizardEnd canEdit session answer accepted).Law ↔
      r.Careful (.updateWizardEnd canEdit session answer accepted) := by
  cases canEdit with
  | false =>
      have hsame : r.updateWizardEnd false session answer accepted = r := by
        have hsave := save_withSession r.row .empty
        rw [withSession_empty] at hsave
        unfold Record.updateWizardEnd
        simp only [Bool.false_eq_true, if_false, mem_updatedUserFields, SessionAddress.empty, Option.any_none, or_self]
        cases accepted with
        | false => rfl
        | true => exact congrArg (fun row => { r with row := row }) hsave
      rw [hsame]
      exact iff_of_true h fun hfalse => by cases hfalse
  | true =>
      simp only [Record.Careful, forall_const]
      unfold Record.updateWizardEnd
      simp only [if_true]
      by_cases hgeocodes : .addressLine1 ∈ updatedUserFields r.row session ∨ .postCode ∈ updatedUserFields r.row session
      · have hne := address_withSession_ne hgeocodes
        have hcity : ChangesCityOnly r session → r.Fits (r.row.withSession session) :=
          fun hcity => absurd hgeocodes (not_or.mpr ⟨hcity.1, hcity.2.1⟩)
        have hrefused : ∀ answer, (r.geocoded (r.row.withSession session).address answer).Law := fun answer =>
          ⟨h.department, (fits_geocoded_ne hne).mpr h.coords⟩
        rw [if_pos hgeocodes]
        cases (r.row.withSession session).geocodingAddress.bind fun _ => answer with
        | none =>
            cases accepted with
            | false => exact iff_of_true (hrefused none) fun hfalse => by cases hfalse
            | true =>
                simp only [if_true, forall_const]
                refine law_withSession_iff h ?_ ?_ (iff_of_true ?_ hcity)
                all_goals simp only [Record.save, Record.geocoded, save_withSession]
                exact fits_geocoded_none rfl
        | some g =>
            cases accepted with
            | false => exact iff_of_true (hrefused (some g)) fun hfalse => by cases hfalse
            | true =>
                simp only [if_true, forall_const]
                refine law_withSession_iff h ?_ ?_ (iff_of_true ?_ hcity)
                all_goals simp only [Record.save, Record.geocoded, save_withSession_geocoding]
                · rfl
                · rfl
                · exact fits_geocoded _ g
      · rw [if_neg hgeocodes]
        cases accepted with
        | false => exact iff_of_true h fun hfalse => by cases hfalse
        | true =>
            simp only [if_true, forall_const]
            have hrow : r.save (r.row.withSession session) (some (updatedUserFields r.row session)) =
                { r with row := r.row.withSession session } :=
              congrArg (fun row => { r with row := row }) (save_withSession r.row session)
            rw [hrow]
            refine law_withSession_iff h rfl rfl ⟨fun hfits _ => hfits, fun hcity => ?_⟩
            obtain ⟨hline, hpost⟩ := not_or.mp hgeocodes
            by_cases hchanges : .city ∈ updatedUserFields r.row session
            · exact hcity ⟨hline, hpost, hchanges⟩
            · exact (fits_congr (address_withSession_eq hline hpost hchanges) rfl rfl).mpr h.coords

theorem law_addressForm_iff (h : r.Law) (data : AddressData) (answer : Option Geocoding) (saved : Bool) :
    (r.addressForm data answer saved).Law ↔ r.Careful (.addressForm data answer saved) := by
  simp only [Record.Careful]
  unfold Record.addressForm
  by_cases hgeocodes : data.geocodes r.row = true
  · simp only [if_pos hgeocodes]
    cases answer with
    | none =>
        refine iff_of_true ⟨h.department, ?_⟩ fun _ _ g hg => by cases hg
        by_cases heq : (r.row.withData data).address = r.row.address
        · exact fits_geocoded_none heq.symm
        · exact (fits_geocoded_ne heq).mpr h.coords
    | some g =>
        cases saved with
        | true =>
            refine iff_of_true ⟨rfl, ?_⟩ fun hfalse => by cases hfalse
            exact (fits_congr rfl rfl rfl).mpr (fits_geocoded (r.row.withData data) g)
        | false =>
            simp only [Bool.false_eq_true, if_false, forall_const, Option.mem_some, forall_eq']
            refine ⟨fun hlaw heq => ?_, fun hanswer => ⟨h.department, ?_⟩⟩
            · exact hlaw.coords g (by
                rw [lastGeocoding_geocoded, heq]
                exact if_pos rfl)
            · by_cases heq : (r.row.withData data).address = r.row.address
              · intro g' hg'
                rw [heq, lastGeocoding_geocoded] at hg'
                obtain rfl : g = g' := by simpa [Record.geocoded] using hg'
                exact hanswer heq
              · exact (fits_geocoded_ne heq).mpr h.coords
  · simp only [if_neg hgeocodes]
    cases saved with
    | false => exact iff_of_true h fun hfalse => by cases hfalse
    | true =>
        simp only [if_true, forall_const]
        have hfits : (r.save (r.row.withData data) none).Fits (r.save (r.row.withData data) none).row ↔
            r.Fits (r.row.withData data) := fits_congr rfl rfl rfl
        exact ⟨fun hlaw => hfits.mp hlaw.coords, fun hdata => ⟨rfl, hfits.mpr hdata⟩⟩

/-- A write keeps the laws exactly when it is careful. -/
theorem law_apply_iff (h : r.Law) (write : Write) : (r.apply write).Law ↔ r.Careful write := by
  cases write with
  | save self updateFields => exact law_save_iff h self updateFields
  | updateWizardEnd canEdit session answer accepted => exact law_updateWizardEnd_iff h canEdit session answer accepted
  | addressForm data answer saved => exact law_addressForm_iff h data answer saved
  | createJobSeeker self answer => exact iff_of_true h trivial

theorem law_createdBySender (self : UserRow) (answer : Option Geocoding) : (Record.createdBySender self answer).Law := by
  simp only [Record.createdBySender]
  cases (self.save self none).geocodingAddress.bind fun _ => answer with
  | some g => exact ⟨rfl, (fits_congr rfl rfl rfl).mpr (fits_geocoded (self.save self none) g)⟩
  | none => exact ⟨rfl, fits_geocoded_none rfl⟩

end OneWrite

/-! ## One step -/

section OneStep

variable {s s' : Users} {label : Nat × Write}

theorem laws_insert_iff (hs : s.Laws) (pk : Nat) (r : Record) : Users.Laws (s.insert pk r) ↔ r.Law := by
  constructor
  · intro h
    exact h r (Table.mem_rows.mpr ⟨pk, AList.lookup_insert s⟩)
  · intro hr r' hr'
    rcases Table.rows_insert_cases hr' with rfl | hr'
    · exact hr
    · exact hs r' hr'

theorem laws_step_iff (hs : s.Laws) (h : s.step label = some s') : s'.Laws ↔ s.Careful label := by
  obtain ⟨pk, write⟩ := label
  cases hlookup : s.lookup pk with
  | some r =>
      have happly : s.insert pk (r.apply write) = s' := by
        cases write with
        | createJobSeeker self answer => simp only [Users.step, hlookup, reduceCtorEq] at h
        | _ => simpa only [Users.step, hlookup, Option.some.injEq] using h
      rw [← happly, laws_insert_iff hs, law_apply_iff (hs r (Table.mem_rows.mpr ⟨pk, hlookup⟩))]
      simp only [Users.Careful, hlookup, Option.mem_some, forall_eq']
  | none =>
      have hcareful : s.Careful (pk, write) := fun r hr => by rw [hlookup] at hr; cases hr
      have hnew : ∃ r : Record, r.Law ∧ s.insert pk r = s' := by
        simp only [Users.step, hlookup] at h
        cases write with
        | save self updateFields =>
            cases updateFields with
            | none => exact ⟨_, ⟨rfl, fun g hg => by cases hg⟩, Option.some.inj h⟩
            | some fields => cases h
        | createJobSeeker self answer => exact ⟨_, law_createdBySender self answer, Option.some.inj h⟩
        | _ => cases h
      obtain ⟨r, hr, rfl⟩ := hnew
      rw [laws_insert_iff hs]
      exact iff_of_true hr hcareful

end OneStep

end Itou.Addresses
