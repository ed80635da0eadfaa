import Itou.Nir.UpdateMixin

/-!
# Canonical numbers

What `validate_nir` accepts is made of digits and of the letters A and B once it is in upper case and without spaces.
-/

namespace Itou.Nir

open Itou.Lib

variable {mapping : CaseMapping}

/-! ## Characters -/

/-- A character of a number in upper case and without spaces. -/
def isNirChar (c : Char) : Bool := isDigit c || c = 'A' || c = 'B'

/-- Such a character is ASCII, its own upper case, and no space. -/
theorem isNirChar_spec {c : Char} (h : isNirChar c) : c.val < 128 ∧ c.toUpper = c ∧ c ≠ ' ' ∧ isSpace c = false ∧
    c ≠ 'F' ∧ c ≠ 'I' ∧ c ≠ 'S' := by
  simp only [isNirChar, isDigit, List.mem_cons, List.not_mem_nil, or_false, decide_eq_true_eq, Bool.or_eq_true,
    or_assoc] at h
  rcases h with rfl | rfl | rfl | rfl | rfl | rfl | rfl | rfl | rfl | rfl | rfl | rfl <;> decide

theorem isNirChar_of_isDigit {c : Char} (h : isDigit c) : isNirChar c := by simp [isNirChar, h]

/-- A text that matches the expression has such characters only. -/
theorem isNirChar_of_nirRegex {l : Text} (h : nirRegex l) : ∀ c ∈ l, isNirChar c := by
  unfold nirRegex at h
  split at h
  · rename_i sex y₁ y₂ m₁ m₂ d₁ d₂ c₁ c₂ c₃ o₁ o₂ o₃ k₁ k₂
    simp only [List.all_cons, List.all_nil, Bool.and_true, Bool.and_eq_true, Bool.or_eq_true, decide_eq_true_eq] at h
    obtain ⟨⟨⟨hsex, hy₁, hy₂, hm₁, hm₂⟩, hd⟩, hc₁, hc₂, hc₃, ho₁, ho₂, ho₃, hk₁, hk₂⟩ := h
    have hsex : isNirChar sex := forall_mem_of_all (p := fun c => isNirChar c) (by decide) sex hsex
    have hd : isNirChar d₁ ∧ isNirChar d₂ := by
      rcases hd with ⟨rfl, hd₂⟩ | ⟨hd₁, hd₂⟩
      · exact ⟨rfl, forall_mem_of_all (p := fun c => isNirChar c) (by decide) d₂ hd₂⟩
      · exact ⟨isNirChar_of_isDigit hd₁, isNirChar_of_isDigit hd₂⟩
    have hother : ∀ c ∈ [y₁, y₂, m₁, m₂], isNirChar c := by
      simp only [List.forall_mem_cons, isNirChar_of_isDigit, hy₁, hy₂, hm₁, hm₂, true_and, List.not_mem_nil,
        false_imp_iff, implies_true]
    have hlast : ∀ c ∈ [c₁, c₂, c₃, o₁, o₂, o₃, k₁, k₂], isNirChar c := by
      simp only [List.forall_mem_cons, isNirChar_of_isDigit, hc₁, hc₂, hc₃, ho₁, ho₂, ho₃, hk₁, hk₂, true_and,
        List.not_mem_nil, false_imp_iff, implies_true]
    intro c hc
    have hsplit : c = sex ∨ c ∈ [y₁, y₂, m₁, m₂] ∨ (c = d₁ ∨ c = d₂) ∨
        c ∈ [c₁, c₂, c₃, o₁, o₂, o₃, k₁, k₂] := by
      simpa only [List.mem_cons, List.not_mem_nil, or_false, or_assoc] using hc
    rcases hsplit with rfl | hc | hc | hc
    · exact hsex
    · exact hother c hc
    · rcases hc with rfl | rfl
      · exact hd.1
      · exact hd.2
    · exact hlast c hc
  · exact absurd h Bool.false_ne_true

/-! ## What the validator accepts -/

theorem length_and_regex_of_validateNir {nir : Text} (h : (validateNir mapping nir).isOk) :
    (upper mapping (removeSpaces nir)).length = 15 ∧
      nirRegex (replacePair '2' 'B' '1' '8' (replacePair '2' 'A' '1' '9' (upper mapping (removeSpaces nir)))) := by
  simp only [validateNir, length_replacePair] at h
  split at h
  · exact absurd h Bool.false_ne_true
  · split at h
    · exact absurd h Bool.false_ne_true
    · split at h
      · exact absurd h Bool.false_ne_true
      · rename_i hlong hshort hregex
        exact ⟨by omega, by simpa using hregex⟩

/-- The upper case of what is accepted has digits and the letters A and B only. -/
theorem isNirChar_of_validateNir {nir : Text} (h : (validateNir mapping nir).isOk) :
    ∀ c ∈ upper mapping (removeSpaces nir), isNirChar c := by
  intro c hc
  have hregex := isNirChar_of_nirRegex (length_and_regex_of_validateNir h).2
  rcases mem_replacePair (a := '2') (b := 'A') (c := '1') (d := '9') hc with hc | rfl | rfl
  · rcases mem_replacePair (a := '2') (b := 'B') (c := '1') (d := '8') hc with hc | rfl | rfl
    · exact hregex c hc
    · rfl
    · rfl
  · rfl
  · rfl

/-- What is accepted is ASCII, spaces apart. -/
theorem ascii_of_validateNir {nir : Text} (h : (validateNir mapping nir).isOk) :
    ∀ c ∈ removeSpaces nir, c.val < 128 :=
  ascii_of_upper fun d hd =>
    have hspec := isNirChar_spec (isNirChar_of_validateNir h d hd)
    ⟨hspec.1, hspec.2.2.2.2⟩

/-! ## Canonical forms -/

theorem IsCanonical.ne_nil {nir : Text} (h : IsCanonical mapping nir) : nir ≠ [] := by
  rintro rfl
  exact absurd h.length (by decide)

@[simp] theorem IsCanonical.canonical_eq {nir : Text} (h : IsCanonical mapping nir) : canonical mapping nir = nir := by
  rw [canonical, h.upperCase, removeSpaces_eq_self h.noSpace]

theorem validateNir_congr {nir nir' : Text}
    (h : upper mapping (removeSpaces nir) = upper mapping (removeSpaces nir')) :
    validateNir mapping nir = validateNir mapping nir' := by
  simp only [validateNir, h]

/-- Spaces may be removed before or after the letters are put in upper case. -/
theorem canonical_eq_upper_removeSpaces {nir : Text} (h : (validateNir mapping nir).isOk) :
    canonical mapping nir = upper mapping (removeSpaces nir) := by
  have hascii := ascii_of_validateNir h
  have hall : ∀ c ∈ nir, c.val < 128 := by
    intro c hc
    by_cases hspace : c = ' '
    · subst hspace; decide
    · exact hascii c (List.mem_filter.mpr ⟨hc, decide_eq_true hspace⟩)
  have hchars := isNirChar_of_validateNir h
  rw [upper_eq_map hascii] at hchars ⊢
  rw [canonical, upper_eq_map hall, removeSpaces, removeSpaces, List.filter_map]
  congr 1
  refine List.filter_congr fun c hc => ?_
  by_cases hspace : c = ' '
  · subst hspace; rfl
  · have hupper := hchars c.toUpper (List.mem_map_of_mem (List.mem_filter.mpr ⟨hc, decide_eq_true hspace⟩))
    simp only [Function.comp_apply, (isNirChar_spec hupper).2.2.1, hspace, ne_eq, not_false_eq_true, decide_true]

/-- The canonical form of what is accepted is canonical. -/
theorem isCanonical_canonical {nir : Text} (h : (validateNir mapping nir).isOk) :
    IsCanonical mapping (canonical mapping nir) := by
  have heq := canonical_eq_upper_removeSpaces h
  have hchars := isNirChar_of_validateNir h
  rw [← heq] at hchars
  have hupper : upper mapping (canonical mapping nir) = canonical mapping nir := by
    rw [upper_eq_map fun c hc => (isNirChar_spec (hchars c hc)).1]
    exact (List.map_congr_left fun c hc => (isNirChar_spec (hchars c hc)).2.1).trans (List.map_id _)
  have hspace : ' ' ∉ canonical mapping nir := space_notMem_removeSpaces _
  refine ⟨hspace, hupper, ?_, ?_⟩
  · rw [heq]
    exact (length_and_regex_of_validateNir h).1
  · have hsame : upper mapping (removeSpaces (canonical mapping nir)) = upper mapping (removeSpaces nir) := by
      rw [removeSpaces_eq_self hspace, hupper, heq]
    rw [validateNir_congr hsame]
    exact h

/-! ## What the forms clean -/

/-- A number without spaces that `validate_nir` accepts: what `JobSeekerSignupForm` keeps. -/
structure Cleaned (mapping : CaseMapping) (nir : Text) : Prop where
  noSpace : ' ' ∉ nir
  accepted : (validateNir mapping nir).isOk

theorem IsCanonical.cleaned {nir : Text} (h : IsCanonical mapping nir) : Cleaned mapping nir := ⟨h.noSpace, h.accepted⟩

theorem Cleaned.canonical_eq {nir : Text} (h : Cleaned mapping nir) : canonical mapping nir = upper mapping nir := by
  rw [canonical_eq_upper_removeSpaces h.accepted, removeSpaces_eq_self h.noSpace]

/-- Only the case of its letters may keep such a number from being canonical. -/
theorem Cleaned.isCanonical_iff {nir : Text} (h : Cleaned mapping nir) :
    IsCanonical mapping nir ↔ upper mapping nir = nir := by
  refine ⟨IsCanonical.upperCase, fun hupper => ?_⟩
  rw [← hupper, ← h.canonical_eq]
  exact isCanonical_canonical h.accepted

theorem charField_spec {required : Bool} {maxLength : Nat} {value nir : Text}
    (h : charField mapping required maxLength value = some nir) :
    nir = strip value ∧ (nir = [] ∨ (validateNir mapping nir).isOk) := by
  simp only [charField] at h
  split at h
  · rename_i hempty
    cases required with
    | true => cases h
    | false => cases h; exact ⟨hempty.symm, Or.inl rfl⟩
  · split at h
    · rename_i haccepted
      cases h
      exact ⟨rfl, Or.inr haccepted.2⟩
    · cases h

theorem canonical_of_charField {required : Bool} {maxLength : Nat} {value nir : Text}
    (h : charField mapping required maxLength value = some nir) :
    canonical mapping nir = [] ∨ IsCanonical mapping (canonical mapping nir) := by
  rcases (charField_spec h).2 with rfl | haccepted
  · exact Or.inl rfl
  · exact Or.inr (isCanonical_canonical haccepted)

/-- `JobSeekerSignupForm` removes the spaces of the number. -/
theorem JobSeekerSignupForm.nir_spec {profiles : Profiles} {typed nir : Text}
    (h : JobSeekerSignupForm.nir mapping profiles typed = some nir) : Cleaned mapping nir := by
  obtain ⟨cleaned, hcleaned, h⟩ := Option.bind_eq_some_iff.mp h
  simp only [JobSeekerSignupForm.cleanNir, Option.ite_none_left_eq_some, Option.some.injEq] at h
  obtain ⟨_, rfl⟩ := h
  have haccepted : (validateNir mapping cleaned).isOk := by
    obtain ⟨hstrip, rfl | haccepted⟩ := charField_spec hcleaned
    · rw [charField, if_pos hstrip.symm] at hcleaned
      cases hcleaned
    · exact haccepted
  refine ⟨space_notMem_removeSpaces _, ?_⟩
  have hsame : upper mapping (removeSpaces (removeSpaces cleaned)) = upper mapping (removeSpaces cleaned) := by
    rw [removeSpaces_eq_self (space_notMem_removeSpaces _)]
  rw [validateNir_congr hsame]
  exact haccepted

/-- `CheckJobSeekerNirForm` gives the canonical form of the number that was typed. -/
theorem CheckJobSeekerNirForm.clean_spec {profiles : Profiles} {jobSeeker : Option Nat} {typed : Text}
    {form : Text × Option Nat} (h : CheckJobSeekerNirForm.clean mapping profiles jobSeeker typed = some form) :
    form.1 = canonical mapping (strip typed) ∧ IsCanonical mapping form.1 ∧
      form.2 = jobSeeker.or (profiles.findByNir form.1) := by
  obtain ⟨cleaned, hcleaned, h⟩ := Option.bind_eq_some_iff.mp h
  obtain ⟨rfl, hempty | haccepted⟩ := charField_spec hcleaned
  · rw [charField, if_pos hempty] at hcleaned
    cases hcleaned
  · cases jobSeeker with
    | none =>
        cases h
        exact ⟨rfl, isCanonical_canonical haccepted, rfl⟩
    | some jobSeeker =>
        simp only [Option.ite_none_left_eq_some, Option.some.injEq] at h
        obtain ⟨_, rfl⟩ := h
        exact ⟨rfl, isCanonical_canonical haccepted, rfl⟩

theorem JobSeekerNIRUpdateMixin.clean_spec {initial : Text} {data : NirData} {profile : JobSeekerProfile}
    (h : JobSeekerNIRUpdateMixin.clean mapping initial data = some profile) :
    profile.nir = [] ∨ IsCanonical mapping profile.nir := by
  obtain ⟨cleaned, hcleaned, h⟩ := Option.bind_eq_some_iff.mp h
  simp only at h
  split at h
  · simp only [Option.ite_none_right_eq_some, Option.some.injEq] at h
    obtain ⟨_, rfl⟩ := h
    exact Or.inl rfl
  · simp only [Option.ite_none_right_eq_some, Option.some.injEq] at h
    obtain ⟨_, rfl⟩ := h
    exact canonical_of_charField hcleaned

theorem JobSeekerProfileFieldsMixin.postClean_spec {profiles : Profiles} {pk : Option Nat}
    {profile profile' : JobSeekerProfile}
    (h : JobSeekerProfileFieldsMixin.postClean mapping profiles pk profile = some profile') :
    profile' = profile ∧ (profile.nir = [] ∨ profile.nir.length ≤ 15 ∧ (validateNir mapping profile.nir).isOk) := by
  simp only [postClean, Option.ite_none_right_eq_some, Option.some.injEq] at h
  obtain ⟨⟨hvalid, _⟩, rfl⟩ := h
  exact ⟨rfl, hvalid⟩

/-- The form of the employee record keeps the number as it was typed. -/
theorem NewEmployeeRecordJobSeekerForm.clean_spec {initial profile : JobSeekerProfile} {data : NirData}
    (h : NewEmployeeRecordJobSeekerForm.clean mapping initial data = some profile) :
    profile.nir = strip (if initial.nir ≠ [] ∨ data.lackOfNir then initial.nir else data.nir) := by
  obtain ⟨cleaned, hcleaned, h⟩ := Option.bind_eq_some_iff.mp h
  simp only [Option.ite_none_left_eq_some, Option.some.injEq] at h
  obtain ⟨_, rfl⟩ := h
  exact (charField_spec hcleaned).1

/-- The column holds 15 characters at most: a number that it accepts has no space. -/
theorem cleaned_of_length {nir : Text} (hlength : nir.length ≤ 15) (h : (validateNir mapping nir).isOk) :
    Cleaned mapping nir := by
  have hupper := (length_and_regex_of_validateNir h).1
  rw [upper_eq_map (ascii_of_validateNir h), List.length_map] at hupper
  refine ⟨fun hspace => ?_, h⟩
  have hlt : (removeSpaces nir).length < nir.length :=
    List.length_filter_lt_length_iff_exists.mpr ⟨' ', hspace, by decide⟩
  omega

/-! ## The mixin -/

section Mixin

variable {initial : Text} {data : NirData} {profile stored saved : JobSeekerProfile}
  {profiles : Profiles} {pk : Option Nat}

/-- What a valid form has cleaned. -/
theorem mixin_clean_eq_some : JobSeekerNIRUpdateMixin.clean mapping initial data = some profile ↔
    ∃ nir, NirUpdateForm.cleanedNir mapping initial data = some nir ∧
      if data.lackOfNir then data.lackOfNirReason.isSome ∧ profile = ⟨[], data.lackOfNirReason⟩
      else nir ≠ [] ∧ profile = ⟨canonical mapping nir, none⟩ := by
  rw [JobSeekerNIRUpdateMixin.clean, Option.bind_eq_some_iff]
  refine exists_congr fun nir => and_congr_right fun hnir => ?_
  have hempty : removeSpaces (upper mapping nir) ≠ [] ↔ nir ≠ [] := by
    rcases (charField_spec hnir).2 with rfl | haccepted
    · exact Iff.rfl
    · refine iff_of_true (isCanonical_canonical haccepted).ne_nil ?_
      rintro rfl
      exact absurd (isCanonical_canonical haccepted).ne_nil (not_not_intro rfl)
  cases data.lackOfNir with
  | true =>
      simp only [if_true, Option.ite_none_right_eq_some, Option.some.injEq]
      exact and_congr_right fun _ => eq_comm
  | false =>
      simp only [Bool.false_eq_true, if_false, Option.ite_none_right_eq_some, Option.some.injEq, hempty]
      exact and_congr_right fun _ => eq_comm

/-- Nobody else has the number: the columns are valid when the number is. -/
theorem postClean_alone {pk : Option Nat} (hnir : profile.nir = [] ∨ IsCanonical mapping profile.nir)
    (hreason : profile.lackOfNirReason = none ∨ profile.nir = []) :
    JobSeekerProfileFieldsMixin.postClean mapping ∅ pk profile = some profile := by
  rw [JobSeekerProfileFieldsMixin.postClean, if_pos]
  refine ⟨hnir.imp_right fun h => ⟨h.length.le, h.accepted⟩, ?_⟩
  rw [Profiles.constraints, Bool.and_eq_true, Bool.or_eq_true, Bool.or_eq_true, decide_eq_true_eq, decide_eq_true_eq]
  exact ⟨hreason, Or.inr rfl⟩

end Mixin

/-! ## The forms -/

namespace NirUpdateForm

variable {form : NirUpdateForm} {stored saved : JobSeekerProfile} {post : PostData}
  {profiles : Profiles} {pk : Option Nat} {accepts : JobSeekerProfile → Bool}

/-- What a form with the fields saves. -/
theorem save_eq_some (hfields : form.deletesFields stored = false)
    (h : form.save mapping profiles pk stored post accepts = some saved) :
    ∃ data ∈ NirData.ofPost (form.initialNir stored) post,
      ∃ nir ∈ cleanedNir mapping (form.initialNir stored) data,
        if data.lackOfNir then data.lackOfNirReason.isSome ∧ saved = ⟨[], data.lackOfNirReason⟩
        else nir ≠ [] ∧ saved = ⟨canonical mapping nir, none⟩ := by
  simp only [save, hfields, Bool.false_eq_true, if_false] at h
  obtain ⟨cleaned, hcleaned, hpost⟩ := Option.bind_eq_some_iff.mp h
  obtain ⟨hcleaned, -⟩ := Option.filter_eq_some_iff.mp hcleaned
  obtain ⟨data, hdata, hcleaned⟩ := Option.bind_eq_some_iff.mp hcleaned
  obtain ⟨nir, hnir, hcases⟩ := mixin_clean_eq_some.mp hcleaned
  exact ⟨data, hdata, nir, hnir, (JobSeekerProfileFieldsMixin.postClean_spec hpost).1 ▸ hcases⟩

/-- What a form that keeps the stored number saves, when it has no field for it. -/
theorem save_deleted (hfields : form.deletesFields stored = true)
    (h : form.save mapping profiles pk stored post accepts = some saved) : saved = stored := by
  simp only [save, hfields, if_true] at h
  obtain ⟨cleaned, hcleaned, hpost⟩ := Option.bind_eq_some_iff.mp h
  obtain ⟨hcleaned, -⟩ := Option.filter_eq_some_iff.mp hcleaned
  cases hcleaned
  exact (JobSeekerProfileFieldsMixin.postClean_spec hpost).1

/-- A valid form, when its other fields are valid and nobody else has the number. -/
theorem save_alone {data : NirData} {nir : Text} (hfields : form.deletesFields stored = false)
    (hdata : NirData.ofPost (form.initialNir stored) post = some data)
    (hnir : cleanedNir mapping (form.initialNir stored) data = some nir)
    (hcases : if data.lackOfNir then data.lackOfNirReason.isSome ∧ saved = ⟨[], data.lackOfNirReason⟩
      else nir ≠ [] ∧ saved = ⟨canonical mapping nir, none⟩) :
    form.save mapping ∅ none stored post (fun _ => true) = some saved := by
  have hclean := mixin_clean_eq_some.mpr ⟨nir, hnir, hcases⟩
  have hvalid : (saved.nir = [] ∨ IsCanonical mapping saved.nir) ∧
      (saved.lackOfNirReason = none ∨ saved.nir = []) := by
    split at hcases
    · obtain ⟨-, rfl⟩ := hcases
      exact ⟨Or.inl rfl, Or.inr rfl⟩
    · obtain ⟨-, rfl⟩ := hcases
      exact ⟨canonical_of_charField hnir, Or.inl rfl⟩
  simp only [save, hfields, Bool.false_eq_true, if_false, hdata, Option.bind_some, hclean, Option.filter_some, if_true]
  exact postClean_alone hvalid.1 hvalid.2

/-- A form that has saved a number keeps the recorded one as long as it is told to. -/
theorem keeps_of_leavesNir (hreason : stored.lackOfNirReason = none ∨ stored.nir = [])
    (hleaves : form.LeavesNir mapping stored post)
    (h : form.save mapping profiles pk stored post accepts = some saved) : Keeps mapping stored saved := by
  cases hfields : form.deletesFields stored with
  | true =>
      cases save_deleted hfields h
      have hnir : stored.nir ≠ [] := by
        cases form with
        | jobSeekerPersonalDataForm initial => exact of_decide_eq_true hfields
        | _ => cases hfields
      exact ⟨hreason.symm, fun _ => rfl, fun hempty => absurd hempty hnir, Or.inl hnir⟩
  | false =>
      obtain ⟨data, hdata, nir, hnir, hcases⟩ := save_eq_some hfields h
      cases hbox : data.lackOfNir with
      | true =>
          simp only [hbox, if_true] at hcases
          obtain ⟨hsome, rfl⟩ := hcases
          refine ⟨Or.inl rfl, fun hstored => ?_, fun _ => Or.inl rfl, Or.inr hsome⟩
          have hnone := hleaves hstored hfields data hdata nir hnir
          simp only [hbox, if_true] at hnone
          rw [hnone] at hsome
          cases hsome
      | false =>
          simp only [hbox, Bool.false_eq_true, if_false] at hcases
          obtain ⟨hne, rfl⟩ := hcases
          have hnumber : IsCanonical mapping (canonical mapping nir) := by
            rcases (charField_spec hnir).2 with rfl | haccepted
            · exact absurd rfl hne
            · exact isCanonical_canonical haccepted
          refine ⟨Or.inr rfl, fun hstored => ?_, fun _ => Or.inr ⟨hnumber.accepted, hnumber.upperCase, hnumber.noSpace⟩,
            Or.inl hnumber.ne_nil⟩
          have hsame := hleaves hstored hfields data hdata nir hnir
          simp only [hbox, Bool.false_eq_true, if_false] at hsame
          exact hsame.resolve_left hne

end NirUpdateForm

end Itou.Nir
