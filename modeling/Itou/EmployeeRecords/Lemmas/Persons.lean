import Itou.EmployeeRecords.Persons
import Itou.Lib.Outcomes
import Itou.Nir.Lemmas.Shapes

/-!
# Identifiers of employees

The numbers of the expression are what the validator accepts, once the form has removed the spaces and the end of line.

The first character of the identifier decides which civility is coherent with it.
-/

namespace Itou.EmployeeRecords

open Itou.Lib
open Itou.Nir (Text isDigit)

/-! ## The expression -/

theorem isSpace_of_isAlphanumeric {c : Char} (h : isAlphanumeric c) : isSpace c = false := by
  simp only [isAlphanumeric, isDigit, Bool.or_eq_true, Bool.and_eq_true, decide_eq_true_eq, Char.le_def,
    UInt32.le_iff_toNat_le] at h
  rcases h with (h | ⟨hge, hle⟩) | ⟨hge, hle⟩
  · exact forall_mem_of_all (p := fun d => isSpace d = false) (by decide) c h
  · exact isSpace_of_visible (Nat.le_trans (by decide) hge) (Nat.le_trans hle (by decide))
  · exact isSpace_of_visible (Nat.le_trans (by decide) hge) (Nat.le_trans hle (by decide))

/-- The numbers of the expression have letters and digits only, and between 11 and 40 of them. -/
theorem nttRegex_spec {l : Text} (h : nttRegex l) :
    (∀ c ∈ l, isAlphanumeric c) ∧ 11 ≤ l.length ∧ l.length ≤ 40 ∧ ∃ c ∈ l.head?, c = '1' ∨ c = '2' := by
  cases l with
  | nil => exact absurd h Bool.false_ne_true
  | cons sex l =>
      simp only [nttRegex, Bool.and_eq_true, decide_eq_true_eq, List.all_eq_true, List.length_take,
        List.length_drop] at h
      obtain ⟨⟨⟨⟨⟨hsex, htake⟩, hdigits⟩, hmin⟩, hmax⟩, hrest⟩ := h
      have hsex' : sex = '1' ∨ sex = '2' := by simpa using hsex
      refine ⟨fun c hc => ?_, ?_, ?_, sex, rfl, hsex'⟩
      · rcases List.mem_cons.mp hc with rfl | hc
        · rcases hsex' with rfl | rfl <;> rfl
        · rw [← List.take_append_drop 9 l] at hc
          rcases List.mem_append.mp hc with hc | hc
          · simp only [isAlphanumeric, hdigits c hc, Bool.true_or]
          · exact hrest c hc
      · rw [List.length_cons]
        omega
      · rw [List.length_cons]
        omega

theorem noSpace_of_nttRegex {l : Text} (h : nttRegex l) : ∀ c ∈ l, isSpace c = false :=
  fun c hc => isSpace_of_isAlphanumeric ((nttRegex_spec h).1 c hc)

theorem removeSpaces_of_nttRegex {l : Text} (h : nttRegex l) : removeSpaces l = l :=
  removeSpaces_eq_self fun hspace => absurd (noSpace_of_nttRegex h ' ' hspace) (by decide)

/-! ## The validator -/

theorem validateNtt_isOk {typed : Text} (h : (validateNtt typed).isOk) : matchLine nttRegex (removeSpaces typed) := by
  simp only [validateNtt] at h
  split at h
  · exact absurd h Bool.false_ne_true
  · split at h
    · exact absurd h Bool.false_ne_true
    · split at h
      · exact absurd h Bool.false_ne_true
      · rename_i hmatch
        simpa using hmatch

theorem validateNtt_of_nttRegex {l : Text} (h : nttRegex l) : (validateNtt l).isOk := by
  obtain ⟨-, hmin, hmax, -⟩ := nttRegex_spec h
  have hmatch : matchLine nttRegex l = true := by rw [matchLine, h, Bool.true_or]
  simp only [validateNtt, removeSpaces_of_nttRegex h, hmatch]
  rw [if_neg (by omega), if_neg (by omega)]
  rfl

/-- What the validator accepts is a number of the expression once it is stripped and has no space. -/
theorem nttRegex_of_validateNtt {typed : Text} (h : (validateNtt typed).isOk) :
    nttRegex (removeSpaces (strip typed)) := by
  rw [← strip_removeSpaces]
  have hmatch := validateNtt_isOk h
  simp only [matchLine, Bool.or_eq_true, Bool.and_eq_true, decide_eq_true_eq] at hmatch
  rcases hmatch with hregex | ⟨hlast, hregex⟩
  · rwa [strip_eq_self (noSpace_of_nttRegex hregex)]
  · obtain ⟨l, hl⟩ := List.getLast?_eq_some_iff.mp hlast
    rw [hl, List.dropLast_concat] at hregex
    rwa [hl, strip_concat (by rfl), strip_eq_self (noSpace_of_nttRegex hregex)]

/-! ## The form -/

theorem cleanNtt_spec {typed ntt : Text} (h : cleanNtt typed = some ntt) (hne : ntt ≠ []) :
    ntt = removeSpaces (strip typed) ∧ nttRegex ntt := by
  simp only [cleanNtt] at h
  split at h
  · cases h
    exact absurd rfl hne
  · split at h
    · rename_i haccepted
      cases h
      have hregex := nttRegex_of_validateNtt haccepted.2
      rw [strip_strip] at hregex
      exact ⟨rfl, hregex⟩
    · cases h

/-- A number of the expression is kept as it is. -/
theorem cleanNtt_of_nttRegex {l : Text} (h : nttRegex l) : cleanNtt l = some l := by
  obtain ⟨-, hmin, hmax, -⟩ := nttRegex_spec h
  have hne : l ≠ [] := by
    rintro rfl
    exact absurd hmin (by decide)
  simp only [cleanNtt, strip_eq_self (noSpace_of_nttRegex h), if_neg hne, removeSpaces_of_nttRegex h]
  exact if_pos ⟨hmax, validateNtt_of_nttRegex h⟩

/-- The number of a valid form is one of the expression. -/
theorem NewEmployeeRecordJobSeekerForm.nttRegex_of_ntt {initialNir siren : Text} {usedByOther : Text → Bool}
    {data : FormData} {ntt : Text}
    (h : NewEmployeeRecordJobSeekerForm.ntt initialNir siren usedByOther data = some ntt) (hne : ntt ≠ []) :
    nttRegex ntt := by
  simp only [NewEmployeeRecordJobSeekerForm.ntt] at h
  split at h
  · cases h
  · rename_i ntt' hclean
    have hntt : ntt' = ntt := by
      split at h
      · split at h
        · exact Option.some.inj h
        · cases h
      · split at h
        · exact Option.some.inj h
        · cases h
    subst hntt
    exact (cleanNtt_spec hclean hne).2

/-! ## The views -/

namespace NttState

variable {s s' : NttState}

/-- The sessions have numbers that the constraint accepts. -/
def SessionsValid (s : NttState) : Prop :=
  ∀ session company jobSeeker, nttConstraint (s.session session company jobSeeker)

theorem save_eq_ok {pk : Nat} {row : NttRow} (h : nttConstraint row.ntt) :
    s.save pk row = .ok { s with records := s.records.insert pk row } := if_pos h

theorem SessionsValid.setSessionNtt (hs : s.SessionsValid) {session : Nat} {jobApplication : NttApplication}
    {ntt : Option Text} (h : nttConstraint ntt) : (s.setSessionNtt session jobApplication ntt).SessionsValid := by
  intro i company jobSeeker
  simp only [NttState.setSessionNtt]
  split
  · exact h
  · exact hs i company jobSeeker

theorem SessionsValid.create (hs : s.SessionsValid) (session : Nat) (jobApplication : NttApplication)
    (data : FormData) : (s.create session jobApplication data).SessionsValid := by
  simp only [NttState.create]
  split
  · exact hs
  · rename_i ntt hform
    split
    · rename_i hne
      exact SessionsValid.setSessionNtt (s := { s with nir := _ }) hs
        (NewEmployeeRecordJobSeekerForm.nttRegex_of_ntt hform hne)
    · exact hs

theorem SessionsValid.getOrCreateRecord (hs : s.SessionsValid) (jobApplication : NttApplication)
    (recordIsCreated : Bool) :
    ∃ s', s.getOrCreateRecord jobApplication recordIsCreated = .ok s' ∧ s'.SessionsValid := by
  simp only [NttState.getOrCreateRecord]
  split
  · exact ⟨_, save_eq_ok rfl, hs⟩
  · exact ⟨s, rfl, hs⟩

theorem SessionsValid.retrieveNtt (hs : s.SessionsValid) (session : Nat) (jobApplication : NttApplication) :
    ∃ s', s.retrieveNtt session jobApplication = .ok s' ∧ s'.SessionsValid := by
  simp only [NttState.retrieveNtt]
  split
  · rename_i row ntt hrow hsession
    split
    · have hntt := hs session jobApplication.toCompany jobApplication.jobSeeker
      rw [hsession] at hntt
      rw [save_eq_ok hntt]
      exact ⟨_, rfl, SessionsValid.setSessionNtt (s := { s with records := _ }) hs rfl⟩
    · exact ⟨s, rfl, hs⟩
  · exact ⟨s, rfl, hs⟩

/-- The saves of the third step are accepted. -/
theorem SessionsValid.createStep3 (hs : s.SessionsValid) (session : Nat) (jobApplication : NttApplication)
    (recordIsCreated : Bool) :
    ∃ s', s.createStep3 session jobApplication recordIsCreated = .ok s' ∧ s'.SessionsValid := by
  obtain ⟨t, ht, hvalid⟩ := hs.getOrCreateRecord jobApplication recordIsCreated
  obtain ⟨s', hs', hvalid'⟩ := hvalid.retrieveNtt session jobApplication
  exact ⟨s', bind_eq_ok.mpr ⟨t, ht, hs'⟩, hvalid'⟩

/-- No request raises. -/
theorem SessionsValid.handle (hs : s.SessionsValid) (request : NttRequest) :
    ∃ s', s.handle request = .ok s' ∧ s'.SessionsValid := by
  cases request with
  | create session jobApplication data => exact ⟨_, rfl, hs.create session jobApplication data⟩
  | createStep3 session jobApplication recordIsCreated => exact hs.createStep3 session jobApplication recordIsCreated
  | changeNir jobSeeker nir => exact ⟨_, rfl, hs⟩

theorem SessionsValid.step (hs : s.SessionsValid) {request : NttRequest} (h : s.step request = some s') :
    s'.SessionsValid := by
  obtain ⟨t, ht, hvalid⟩ := hs.handle request
  rw [NttState.step, ht] at h
  cases h
  exact hvalid

end NttState

/-! ## First characters -/

open Itou.Nir

variable {mapping : CaseMapping}

/-- The upper case of a letter is no digit. -/
theorem eq_of_toUpper_eq {c d : Char} (hd : d ∈ ['1', '2', '3', '4', '7', '8']) (h : c.toUpper = d) : c = d := by
  delta Char.toUpper at h
  split at h
  · rename_i hlower
    have hge : 97 ≤ c.val.toNat := UInt32.le_iff_toNat_le.mp hlower.1
    have hle : c.val.toNat ≤ 122 := UInt32.le_iff_toNat_le.mp hlower.2
    have hval : d.val.toNat = c.val.toNat - 32 := by
      rw [← h]
      change (c.val + ('A'.val - 'a'.val)).toNat = _
      rw [UInt32.toNat_add, show ('A'.val - 'a'.val).toNat = 2 ^ 32 - 32 by decide]
      omega
    have hlt : d.val.toNat < 65 := forall_mem_of_all (p := fun d => d.val.toNat < 65) (by decide) d hd
    omega
  · exact h

theorem head?_replacePair {a b c d x : Char} {l : Text} :
    ∀ y ∈ (replacePair a b c d (x :: l)).head?, y = x ∨ x = a := by
  intro y hy
  cases l with
  | nil => exact Or.inl (Option.some.inj hy).symm
  | cons z l =>
      rw [replacePair] at hy
      split at hy
      · rename_i hpair
        exact Or.inr hpair.1
      · exact Or.inl (Option.some.inj hy).symm

theorem head?_of_nirRegex {l : Text} (h : nirRegex l) : ∀ c ∈ l.head?, c ∈ ['1', '2', '3', '4', '7', '8'] := by
  intro c hc
  unfold nirRegex at h
  split at h
  · obtain rfl := Option.some.inj hc
    simp only [Bool.and_eq_true, decide_eq_true_eq] at h
    exact h.1.1.1
  · exact absurd h Bool.false_ne_true

/-- A NIR of the column starts with a digit of its sex. -/
theorem head?_of_validateNir {nir : Text} (hlength : nir.length ≤ 15) (h : (validateNir mapping nir).isOk) :
    ∃ c l, nir = c :: l ∧ c ∈ ['1', '2', '3', '4', '7', '8'] := by
  have hclean : removeSpaces nir = nir := removeSpaces_eq_self (cleaned_of_length hlength h).noSpace
  have hascii := ascii_of_validateNir h
  obtain ⟨hlength', hregex⟩ := length_and_regex_of_validateNir h
  rw [hclean] at hascii hlength' hregex
  rw [upper_eq_map hascii] at hlength' hregex
  cases nir with
  | nil => exact absurd hlength' (by decide)
  | cons c l =>
      have hsexes : ∀ d ∈ ['1', '2', '3', '4', '7', '8'], c.toUpper = d → c ∈ ['1', '2', '3', '4', '7', '8'] := by
        intro d hd hupper
        rwa [eq_of_toUpper_eq hd hupper]
      refine ⟨c, l, rfl, ?_⟩
      rw [List.map_cons] at hregex hlength'
      cases hfirst : replacePair '2' 'A' '1' '9' (c.toUpper :: l.map Char.toUpper) with
      | nil =>
          have hlen := length_replacePair '2' 'A' '1' '9' (c.toUpper :: l.map Char.toUpper)
          rw [hfirst, hlength'] at hlen
          exact absurd hlen (by decide)
      | cons d l' =>
          rw [hfirst] at hregex
          cases hsecond : replacePair '2' 'B' '1' '8' (d :: l') with
          | nil =>
              rw [hsecond] at hregex
              exact absurd hregex Bool.false_ne_true
          | cons e l'' =>
              rw [hsecond] at hregex
              have he := head?_of_nirRegex hregex e rfl
              -- A character that changed is the first one of a pair.
              have htwo : c.toUpper = '2' → c ∈ ['1', '2', '3', '4', '7', '8'] := hsexes '2' (by decide)
              rcases head?_replacePair d (Option.mem_def.mpr (congrArg List.head? hfirst)) with rfl | hpair
              · rcases head?_replacePair e (Option.mem_def.mpr (congrArg List.head? hsecond)) with rfl | hpair
                · exact hsexes _ he rfl
                · exact htwo hpair
              · exact htwo hpair

/-! ## Coherence -/

section Coherent

variable {civilite : Option Title} {c : Char} {l : Text}

theorem coherent_nil : PersonData.Coherent ⟨civilite, []⟩ ↔ civilite = none := by
  constructor
  · rintro ⟨hman, hwoman⟩
    cases civilite with
    | none => rfl
    | some title =>
        cases title with
        | m =>
            obtain ⟨c, hc, -⟩ := hman.mp rfl
            cases hc
        | mme =>
            obtain ⟨c, hc, -⟩ := hwoman.mp rfl
            cases hc
  · rintro rfl
    exact ⟨⟨nofun, fun ⟨c, hc, _⟩ => nomatch hc⟩, ⟨nofun, fun ⟨c, hc, _⟩ => nomatch hc⟩⟩

theorem coherent_cons_iff :
    PersonData.Coherent ⟨civilite, c :: l⟩ ↔
      (civilite = some .m ↔ c ∈ ['1', '3', '7']) ∧ (civilite = some .mme ↔ c ∈ ['2', '4', '8']) := by
  have hman : DenotesMan (c :: l) ↔ c ∈ ['1', '3', '7'] := by simp [DenotesMan]
  have hwoman : DenotesWoman (c :: l) ↔ c ∈ ['2', '4', '8'] := by simp [DenotesWoman]
  constructor
  · rintro ⟨h, h'⟩
    exact ⟨h.trans hman, h'.trans hwoman⟩
  · rintro ⟨h, h'⟩
    exact ⟨h.trans hman.symm, h'.trans hwoman.symm⟩

theorem coherent_man (hc : c ∈ ['1', '3', '7']) : PersonData.Coherent ⟨civilite, c :: l⟩ ↔ civilite = some .m := by
  have hnot : c ∉ ['2', '4', '8'] := forall_mem_of_all (p := fun c => c ∉ ['2', '4', '8']) (by decide) c hc
  rw [coherent_cons_iff]
  constructor
  · exact fun h => h.1.mpr hc
  · rintro rfl
    exact ⟨iff_of_true rfl hc, iff_of_false nofun hnot⟩

theorem coherent_woman (hc : c ∈ ['2', '4', '8']) :
    PersonData.Coherent ⟨civilite, c :: l⟩ ↔ civilite = some .mme := by
  have hnot : c ∉ ['1', '3', '7'] := forall_mem_of_all (p := fun c => c ∉ ['1', '3', '7']) (by decide) c hc
  rw [coherent_cons_iff]
  constructor
  · exact fun h => h.2.mpr hc
  · rintro rfl
    exact ⟨iff_of_false nofun hnot, iff_of_true rfl hc⟩

end Coherent

/-! ## What the person part depends on -/

/-- The sex of a NIR agrees with its title when the first character is that of the title. -/
theorem titleAgrees_cons {title : Title} {c : Char} {l : Text} (hc : c ∈ ['1', '2', '3', '4', '7', '8'])
    (h : (cleanNirTitleBirthdateFields (c :: l) (some title) none).isOk) :
    (title = .m ∧ c ∈ ['1', '3', '7']) ∨ (title = .mme ∧ c ∈ ['2', '4', '8']) := by
  by_cases hman : c ∈ ['1', '3', '7']
  · have hsex : sex (c :: l) = some .male := by rw [sex, if_pos hman]
    cases title with
    | m => exact Or.inl ⟨rfl, hman⟩
    | mme =>
        simp only [cleanNirTitleBirthdateFields, hsex] at h
        exact absurd h Bool.false_ne_true
  · have hwoman : c ∈ ['2', '4', '8'] :=
      forall_mem_of_all (p := fun c => c ∉ ['1', '3', '7'] → c ∈ ['2', '4', '8']) (by decide) c hc hman
    have hsex : sex (c :: l) = some .female := by rw [sex, if_neg hman, if_pos hwoman]
    cases title with
    | m =>
        simp only [cleanNirTitleBirthdateFields, hsex] at h
        exact absurd h Bool.false_ne_true
    | mme => exact Or.inr ⟨rfl, hwoman⟩

/-- The forms of the identifiers of a person. -/
theorem Person.Valid.shape {p : Person} (h : p.Valid mapping) :
    (p.nir = [] ∨ ∃ c l, p.nir = c :: l ∧ c ∈ ['1', '2', '3', '4', '7', '8']) ∧
      (p.ntt = none ∨ ∃ c l, p.ntt = some (c :: l) ∧ (c = '1' ∨ c = '2')) := by
  constructor
  · rcases h.nir with hnil | ⟨hlength, hnir⟩
    · exact Or.inl hnil
    · exact Or.inr (head?_of_validateNir hlength hnir)
  · cases hntt : p.ntt with
    | none => exact Or.inl rfl
    | some ntt =>
        have hregex := h.ntt
        rw [hntt] at hregex
        obtain ⟨-, -, -, c, hc, hsex⟩ := nttRegex_spec hregex
        obtain ⟨l, rfl⟩ := List.head?_eq_some_iff.mp hc
        exact Or.inr ⟨c, l, rfl, hsex⟩

theorem isNttRequired_cons {c : Char} {l : Text} : isNttRequired (c :: l) = decide (c = '7' ∨ c = '8') := by
  simp [isNttRequired]

/-- The title that is sent with a NIR. -/
theorem getCivilite_cons {title : Option Title} {c : Char} {l : Text} {ntt : Option Text} {aspUid : Text}
    {hasBirthCountry : Bool} :
    PersonSerializer.getCivilite ⟨title, c :: l, ntt, aspUid, hasBirthCountry⟩ = some (title.getD .mme) := by
  cases title <;> rfl

theorem getCivilite_eq_none {p : Person} (h : PersonSerializer.getCivilite p = none) : p.title = none ∧ p.nir = [] := by
  rw [PersonSerializer.getCivilite] at h
  split at h
  · cases h
  · cases h
  · rename_i htitle hnir
    exact ⟨htitle, hnir⟩

/-! ## The two payloads -/

/-- An NTT is coherent with the title when it starts with the digit of the title. -/
theorem coherent_ntt_iff {title : Title} {c : Char} {l : Text} (hc : c = '1' ∨ c = '2') :
    PersonData.Coherent ⟨some title, c :: l⟩ ↔ (title = .m ↔ (c :: l).head? = some '1') := by
  rcases hc with rfl | rfl
  · rw [coherent_man (by decide)]
    cases title <;> simp
  · rw [coherent_woman (by decide)]
    cases title <;> simp

theorem record_coherent_iff {p : Person} (hvalid : p.Valid mapping) (hagrees : p.TitleAgrees) :
    (EmployeeRecordSerializer.personnePhysique p).Coherent ↔ p.RecordCondition := by
  obtain ⟨hnir, hntt⟩ := hvalid.shape
  obtain ⟨title, nir, ntt, aspUid, hasBirthCountry⟩ := p
  rcases hnir with hnil | ⟨c, l, hcons, hc⟩
  · obtain rfl : nir = [] := hnil
    have hrequired : isNttRequired [] = true := rfl
    have hdata : EmployeeRecordSerializer.personnePhysique ⟨title, [], ntt, aspUid, hasBirthCountry⟩ =
        ⟨title, ntt.getD []⟩ := by cases title <;> rfl
    rw [hdata]
    simp only [Person.RecordCondition, hrequired, if_true]
    rcases hntt with hnone | ⟨d, m, hsome, hd⟩
    · obtain rfl : ntt = none := hnone
      rw [Option.getD_none, coherent_nil]
      cases title <;> simp
    · obtain rfl : ntt = some (d :: m) := hsome
      cases title with
      | none =>
          rw [Option.getD_some]
          rcases hd with rfl | rfl
          · rw [coherent_man (by decide)]
            simp
          · rw [coherent_woman (by decide)]
            simp
      | some title => exact coherent_ntt_iff hd
  · obtain rfl : nir = c :: l := hcons
    by_cases hseven : c = '7' ∨ c = '8'
    · have hrequired : isNttRequired (c :: l) = true := by rw [isNttRequired_cons]; exact decide_eq_true hseven
      have hdata : EmployeeRecordSerializer.personnePhysique ⟨title, c :: l, ntt, aspUid, hasBirthCountry⟩ =
          ⟨some (title.getD .mme), ntt.getD []⟩ := by
        simp only [EmployeeRecordSerializer.personnePhysique, PersonSerializer.data, getCivilite_cons,
          PersonSerializer.getSalarieNIR, hrequired, if_true]
      rw [hdata]
      simp only [Person.RecordCondition, hrequired, if_true]
      rcases hntt with hnone | ⟨d, m, hsome, hd⟩
      · obtain rfl : ntt = none := hnone
        rw [Option.getD_none, coherent_nil]
        cases title <;> simp
      · obtain rfl : ntt = some (d :: m) := hsome
        rw [Option.getD_some, coherent_ntt_iff hd]
        cases title with
        | none =>
            rcases hd with rfl | rfl <;> simp
        | some title => rfl
    · have hrequired : isNttRequired (c :: l) = false := by rw [isNttRequired_cons]; exact decide_eq_false hseven
      have hdata : EmployeeRecordSerializer.personnePhysique ⟨title, c :: l, ntt, aspUid, hasBirthCountry⟩ =
          ⟨some (title.getD .mme), c :: l⟩ := by
        simp only [EmployeeRecordSerializer.personnePhysique, PersonSerializer.data, getCivilite_cons,
          PersonSerializer.getSalarieNIR, hrequired, Bool.false_eq_true, if_false]
      rw [hdata]
      simp only [Person.RecordCondition, hrequired, Bool.false_eq_true, if_false]
      cases title with
      | none =>
          have hcases : c = '1' ∨ c = '2' ∨ c = '3' ∨ c = '4' := by
            simp only [List.mem_cons, List.not_mem_nil, or_false] at hc
            grind
          rcases hcases with rfl | rfl | rfl | rfl
          · rw [coherent_man (by decide)]; simp
          · rw [coherent_woman (by decide)]; simp
          · rw [coherent_man (by decide)]; simp
          · rw [coherent_woman (by decide)]; simp
      | some title =>
          rcases titleAgrees_cons hc hagrees with ⟨rfl, hman⟩ | ⟨rfl, hwoman⟩
          · rw [coherent_man hman]; simp
          · rw [coherent_woman hwoman]; simp

theorem notification_coherent_iff {p : Person} (hvalid : p.Valid mapping) (hagrees : p.TitleAgrees) :
    (EmployeeRecordUpdateNotificationSerializer.getPersonnePhysique p).Coherent ↔ p.NotificationCondition := by
  obtain ⟨hnir, hntt⟩ := hvalid.shape
  by_cases hmissing : isNttRequired p.nir ∧ p.ntt = none
  · -- The identifier is generated from the civility.
    refine iff_of_true ?_ (Or.inl hmissing)
    have hsalarieNIR : PersonSerializer.getSalarieNIR p = [] := by
      rw [PersonSerializer.getSalarieNIR, if_pos hmissing.1, hmissing.2]
      rfl
    have hdata : EmployeeRecordUpdateNotificationSerializer.getPersonnePhysique p = StaticPersonSerializer.data p := by
      rw [EmployeeRecordUpdateNotificationSerializer.getPersonnePhysique, hmissing.1, hmissing.2]
      exact if_pos (by simp)
    rw [hdata, StaticPersonSerializer.data, StaticPersonSerializer.getSalarieNIR, hsalarieNIR, if_neg (by simp)]
    cases StaticPersonSerializer.getCivilite p with
    | m => exact (coherent_man (by decide)).mpr rfl
    | mme => exact (coherent_woman (by decide)).mpr rfl
  · have hplain : (isNttRequired p.nir && (p.ntt.getD []).isEmpty) = false := by
      rcases hntt with hnone | ⟨d, m, hsome, _⟩
      · rw [Bool.eq_false_iff.mpr fun hrequired => hmissing ⟨hrequired, hnone⟩, Bool.false_and]
      · rw [hsome, Option.getD_some, List.isEmpty_cons, Bool.and_false]
    have hsalarieNIR : PersonSerializer.getSalarieNIR p ≠ [] := by
      rw [PersonSerializer.getSalarieNIR]
      split
      · rename_i hrequired
        rw [hrequired, Bool.true_and] at hplain
        exact fun hempty => absurd (List.isEmpty_iff.mpr hempty) (by rw [hplain]; exact Bool.false_ne_true)
      · rename_i hrequired
        intro hempty
        rw [hempty] at hrequired
        exact hrequired rfl
    rw [EmployeeRecordUpdateNotificationSerializer.getPersonnePhysique, hplain, Bool.or_false,
      Person.NotificationCondition, or_iff_right hmissing]
    cases hcountry : p.hasBirthCountry with
    | true =>
        rw [or_iff_left fun h => Bool.noConfusion h.1]
        exact record_coherent_iff hvalid hagrees
    | false =>
        have hdata : StaticPersonSerializer.data p =
            ⟨some ((PersonSerializer.getCivilite p).getD .m), PersonSerializer.getSalarieNIR p⟩ := by
          rw [StaticPersonSerializer.data, StaticPersonSerializer.getSalarieNIR, if_pos hsalarieNIR]
          rfl
        rw [Bool.not_false, if_pos rfl, hdata]
        cases hcivilite : PersonSerializer.getCivilite p with
        | some title =>
            -- Only the places of birth differ from what a record sends.
            have hsame : (⟨some title, PersonSerializer.getSalarieNIR p⟩ : PersonData) =
                EmployeeRecordSerializer.personnePhysique p := by
              rw [EmployeeRecordSerializer.personnePhysique, PersonSerializer.data, hcivilite]
            rw [Option.getD_some, hsame, record_coherent_iff hvalid hagrees, or_iff_left]
            rintro ⟨-, htitle, hnil, -⟩
            rw [PersonSerializer.getCivilite, htitle, hnil] at hcivilite
            cases hcivilite
        | none =>
            obtain ⟨htitle, hnil⟩ := getCivilite_eq_none hcivilite
            have hrequired : isNttRequired p.nir = true := by rw [hnil]; rfl
            obtain ⟨d, m, hsome, hd⟩ := hntt.resolve_left fun hnone => hmissing ⟨hrequired, hnone⟩
            have hidentifier : PersonSerializer.getSalarieNIR p = d :: m := by
              rw [PersonSerializer.getSalarieNIR, if_pos hrequired, hsome, Option.getD_some]
            have hrecord : ¬ p.RecordCondition := by
              rw [Person.RecordCondition, if_pos hrequired, htitle, hsome]
              exact fun h => h.1 hnil
            rw [hidentifier, Option.getD_none, coherent_ntt_iff hd, or_iff_right hrecord, htitle, hnil, hsome]
            simp

end Itou.EmployeeRecords
