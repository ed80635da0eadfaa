import Itou.Lib.Runs
import Itou.Nir.Entries
import Itou.Nir.Lemmas.Forms

/-!
# What the requests write

A request writes one profile at most, with a number that was cleaned by its form or kept in a session.
-/

namespace Itou.Nir

open Itou.Lib

variable {mapping : CaseMapping}

/-! ## The table -/

/-- The only profile that has a number is the one that is found. -/
theorem Profiles.findByNir_eq {profiles : Profiles} {pk : Nat} {profile : JobSeekerProfile}
    (h : profiles.lookup pk = some profile)
    (hunique : ∀ pk' profile', profiles.lookup pk' = some profile' → profile'.nir = profile.nir → pk' = pk) :
    profiles.findByNir profile.nir = some pk := by
  unfold Profiles.findByNir
  cases hfind : profiles.entries.find? (fun entry => entry.2.nir = profile.nir) with
  | none =>
      have hnone := List.find?_eq_none.mp hfind ⟨pk, profile⟩ (AList.mem_lookup_iff.mp h)
      simp at hnone
  | some entry =>
      have hmem := AList.mem_lookup_iff.mpr (List.mem_of_find?_eq_some hfind)
      have hnir := List.find?_some hfind
      rw [Option.map_some, hunique entry.1 entry.2 hmem (by simpa using hnir)]

theorem Profiles.nir_ne_of_constraints {profiles : Profiles} {pk pk' : Nat} {profile profile' : JobSeekerProfile}
    (h : profiles.constraints (some pk) profile) (hne : profile.nir ≠ []) (hpk : pk' ≠ pk)
    (h' : profiles.lookup pk' = some profile') : profile'.nir ≠ profile.nir := by
  simp only [constraints, Bool.and_eq_true, Bool.or_eq_true, decide_eq_true_eq, hne, false_or, Bool.not_eq_true',
    usedByOther, List.any_eq_false] at h
  have hentry := h.2 ⟨pk', profile'⟩ (AList.mem_lookup_iff.mp h')
  simpa [hpk] using hentry

/-! ## The laws -/

namespace State

variable {s s' : State}

/-- The last law follows from the others. -/
theorem findsAccount (hstored : s.StoredCanonical mapping) (hunique : s.OneAccount mapping) :
    s.FindsAccount mapping := by
  intro typed form hform pk profile hprofile hne hcanonical
  obtain ⟨hnir, _, hfound⟩ := CheckJobSeekerNirForm.clean_spec hform
  have heq : form.1 = profile.nir := by
    rw [hnir, ← hcanonical, (hstored pk profile hprofile hne).canonical_eq]
  rw [hfound, Option.none_or, heq]
  refine Profiles.findByNir_eq hprofile fun pk' profile' hprofile' hnir' => ?_
  refine hunique pk' pk profile' profile hprofile' hprofile ?_ hne ?_
  · rwa [hnir']
  · rw [hnir']

/-- What a session keeps for later. -/
structure Clean (mapping : CaseMapping) (s : State) : Prop where
  signup : ∀ n nir, s.signup n = some nir → nir = [] ∨ Cleaned mapping nir
  getOrCreate : ∀ n value nir, s.getOrCreate n = some value → value.profile.nir = some nir →
    nir = [] ∨ IsCanonical mapping nir
  update : ∀ n value nir, s.update n = some value → value.profile.nir = some nir → nir = [] ∨ IsCanonical mapping nir

theorem Fresh.clean (h : s.Fresh) : s.Clean mapping where
  signup n nir hnir := by simp [(h n).1] at hnir
  getOrCreate n value nir hvalue := by simp [(h n).2.1] at hvalue
  update n value nir hvalue := by simp [(h n).2.2] at hvalue

/-! ## Sessions -/

theorem save_spec {pk : Nat} {profile : JobSeekerProfile} (h : s.save pk profile = some s') :
    s.profiles.constraints (some pk) profile ∧ s' = { s with profiles := s.profiles.insert pk profile } := by
  simp only [save, Option.ite_none_right_eq_some, Option.some.injEq] at h
  exact ⟨h.1, h.2.symm⟩

theorem Clean.save {pk : Nat} {profile : JobSeekerProfile} (hs : s.Clean mapping)
    (h : s.save pk profile = some s') : s'.Clean mapping := by
  obtain ⟨_, rfl⟩ := save_spec h
  exact ⟨hs.signup, hs.getOrCreate, hs.update⟩

theorem Clean.setSignup {session : Nat} {new : Option Text} (hs : s.Clean mapping)
    (h : ∀ nir, new = some nir → nir = [] ∨ Cleaned mapping nir) : (s.setSignup session new).Clean mapping :=
  ⟨(Function.forall_update_iff s.signup fun _ value => ∀ nir, value = some nir → nir = [] ∨ Cleaned mapping nir).mpr
    ⟨h, fun n _ => hs.signup n⟩, hs.getOrCreate, hs.update⟩

theorem Clean.setGetOrCreate {session : Nat} {new : Option GetOrCreateSession} (hs : s.Clean mapping)
    (h : ∀ value nir, new = some value → value.profile.nir = some nir → nir = [] ∨ IsCanonical mapping nir) :
    (s.setGetOrCreate session new).Clean mapping :=
  ⟨hs.signup, (Function.forall_update_iff s.getOrCreate fun _ new => ∀ value nir, new = some value →
    value.profile.nir = some nir → nir = [] ∨ IsCanonical mapping nir).mpr ⟨h, fun n _ => hs.getOrCreate n⟩, hs.update⟩

theorem Clean.setUpdate {session : Nat} {new : Option UpdateSession} (hs : s.Clean mapping)
    (h : ∀ value nir, new = some value → value.profile.nir = some nir → nir = [] ∨ IsCanonical mapping nir) :
    (s.setUpdate session new).Clean mapping :=
  ⟨hs.signup, hs.getOrCreate, (Function.forall_update_iff s.update fun _ new => ∀ value nir, new = some value →
    value.profile.nir = some nir → nir = [] ∨ IsCanonical mapping nir).mpr ⟨h, fun n _ => hs.update n⟩⟩

/-- The first step of a wizard keeps a canonical number, if any. -/
theorem step1_spec {pk : Option Nat} {initial : Text} {data : NirData} {accepts : JobSeekerProfile → Bool}
    {profile : SessionProfile} (h : s.step1 mapping pk initial data accepts = some profile) :
    ∃ nir, profile.nir = some nir ∧ (nir = [] ∨ IsCanonical mapping nir) := by
  obtain ⟨cleaned, hcleaned, rfl⟩ := Option.map_eq_some_iff.mp h
  obtain ⟨profile, hprofile, hcleaned⟩ := Option.bind_eq_some_iff.mp hcleaned
  obtain ⟨rfl, _⟩ := JobSeekerProfileFieldsMixin.postClean_spec hcleaned
  exact ⟨_, rfl, JobSeekerNIRUpdateMixin.clean_spec (Option.filter_eq_some_iff.mp hprofile).1⟩

theorem setNir_spec {session : Nat} {email : Bool} {typed : Text} (h : s.setNir mapping session email typed = some s') :
    ∃ nir, IsCanonical mapping nir ∧ s' = s.setGetOrCreate session
      (some { email, profile := { nir := some nir, lackOfNirReason := none } }) := by
  obtain ⟨form, hform, h⟩ := Option.bind_eq_some_iff.mp h
  have hcanonical := (CheckJobSeekerNirForm.clean_spec hform).2.1
  cases hfound : form.2 with
  | some pk => rw [hfound] at h; cases h
  | none =>
      rw [hfound] at h
      cases h
      exact ⟨form.1, hcanonical, rfl⟩

theorem Clean.setNir {session : Nat} {email : Bool} {typed : Text} (hs : s.Clean mapping)
    (h : s.setNir mapping session email typed = some s') : s'.Clean mapping := by
  obtain ⟨nir, hcanonical, rfl⟩ := setNir_spec h
  refine hs.setGetOrCreate ?_
  rintro _ nir' ⟨⟩ hnir'
  cases hnir'
  exact Or.inr hcanonical

/-- What the sessions keep stays clean. -/
theorem Clean.handle {request : Request} (hs : s.Clean mapping) (h : s.handle mapping request = some s') :
    s'.Clean mapping := by
  cases request with
  | jobSeekerSignupInfo session skip typed accepts =>
      obtain ⟨nir, hnir, rfl⟩ := Option.map_eq_some_iff.mp h
      refine hs.setSignup fun nir' hnir' => ?_
      cases hnir'
      have hform := (Option.filter_eq_some_iff.mp hnir).1
      cases skip with
      | true => exact Or.inl (Option.some.inj hform).symm
      | false => exact Or.inr (JobSeekerSignupForm.nir_spec hform)
  | jobSeekerCredentials session pk =>
      simp only [State.handle, jobSeekerCredentials, Option.ite_none_left_eq_some] at h
      obtain ⟨nir, _, h⟩ := Option.bind_eq_some_iff.mp h.2
      exact (hs.setSignup (by simp)).save h
  | ssoLogin session pk =>
      obtain ⟨nir, _, h⟩ := Option.bind_eq_some_iff.mp h
      exact (hs.setSignup (by simp)).save h
  | checkNirForJobSeeker jobSeeker typed =>
      obtain ⟨_, _, h⟩ := Option.bind_eq_some_iff.mp h
      obtain ⟨_, _, h⟩ := Option.bind_eq_some_iff.mp h
      exact hs.save h
  | getOrCreateStart session =>
      cases h
      exact hs.setGetOrCreate (by rintro _ nir ⟨⟩ ⟨⟩)
  | joinGroupFromNir session typed => exact hs.setNir h
  | checkNirForSender session typed =>
      obtain ⟨value, _, h⟩ := Option.bind_eq_some_iff.mp h
      exact hs.setNir h
  | searchByEmail session found confirm mayAddNir =>
      obtain ⟨value, hvalue, h⟩ := Option.bind_eq_some_iff.mp h
      cases found with
      | none =>
          cases h
          refine hs.setGetOrCreate ?_
          rintro _ nir ⟨⟩ hnir
          exact hs.getOrCreate session value nir hvalue hnir
      | some jobSeeker =>
          obtain ⟨profile, _, h⟩ := Option.bind_eq_some_iff.mp h
          obtain ⟨nir, _, h⟩ := Option.bind_eq_some_iff.mp h
          exact hs.save (Option.ite_none_right_eq_some.mp h).2
  | createStep1 session data accepts =>
      obtain ⟨value, _, h⟩ := Option.bind_eq_some_iff.mp h
      obtain ⟨profile, hprofile, rfl⟩ := Option.map_eq_some_iff.mp h
      obtain ⟨nir, hnir, hcanonical⟩ := step1_spec hprofile
      refine hs.setGetOrCreate ?_
      rintro _ nir' ⟨⟩ hnir'
      cases hnir.symm.trans hnir'
      exact hcanonical
  | createStepEnd session pk =>
      simp only [State.handle, createStepEnd, Option.ite_none_left_eq_some] at h
      obtain ⟨value, _, h⟩ := Option.bind_eq_some_iff.mp h.2
      obtain ⟨nir, _, h⟩ := Option.bind_eq_some_iff.mp h
      exact (hs.setGetOrCreate (by simp)).save h
  | updateStart session jobSeeker =>
      cases h
      exact hs.setUpdate (by rintro _ nir ⟨⟩ ⟨⟩)
  | updateStep1 session data accepts =>
      obtain ⟨value, _, h⟩ := Option.bind_eq_some_iff.mp h
      obtain ⟨old, _, h⟩ := Option.bind_eq_some_iff.mp h
      obtain ⟨profile, hprofile, rfl⟩ := Option.map_eq_some_iff.mp h
      obtain ⟨nir, hnir, hcanonical⟩ := step1_spec hprofile
      refine hs.setUpdate ?_
      rintro _ nir' ⟨⟩ hnir'
      cases hnir.symm.trans hnir'
      exact hcanonical
  | updateStepEnd session =>
      obtain ⟨value, _, h⟩ := Option.bind_eq_some_iff.mp h
      obtain ⟨profile, _, h⟩ := Option.bind_eq_some_iff.mp h
      exact (hs.setUpdate (by simp)).save h
  | editJobSeekerInfo jobSeeker data accepts =>
      obtain ⟨initial, _, h⟩ := Option.bind_eq_some_iff.mp h
      obtain ⟨profile, _, h⟩ := Option.bind_eq_some_iff.mp h
      exact hs.save h
  | createEmployeeRecord jobSeeker data accepts =>
      obtain ⟨initial, _, h⟩ := Option.bind_eq_some_iff.mp h
      obtain ⟨profile, _, h⟩ := Option.bind_eq_some_iff.mp h
      exact hs.save h

/-! ## What a request writes -/

/-- The profile that a request writes under the key `pk`. -/
structure Writes (mapping : CaseMapping) (s s' : State) (request : Request) (pk : Nat) (profile : JobSeekerProfile) :
    Prop where
  constraints : s.profiles.constraints (some pk) profile
  profiles : s'.profiles = s.profiles.insert pk profile
  cleaned : profile.nir = [] ∨ Cleaned mapping profile.nir
  upperCase : s.UpperCase mapping request ↔ upper mapping profile.nir = profile.nir

/-- A number that is canonical, or none, is written whatever the request. -/
theorem writes_of_canonical {request : Request} {t : State} {pk : Nat} {profile : JobSeekerProfile}
    (hrequest : s.UpperCase mapping request) (ht : t.profiles = s.profiles) (h : t.save pk profile = some s')
    (hprofile : profile.nir = [] ∨ IsCanonical mapping profile.nir) : Writes mapping s s' request pk profile := by
  obtain ⟨hconstraints, rfl⟩ := save_spec h
  rw [ht] at hconstraints
  refine ⟨hconstraints, by rw [ht], hprofile.imp_right IsCanonical.cleaned, iff_of_true hrequest ?_⟩
  rcases hprofile with hempty | hcanonical
  · rw [hempty]
    rfl
  · exact hcanonical.upperCase

/-- So is the number of a signup. -/
theorem writes_of_signup {request : Request} {session pk : Nat} {nir : Text} (hs : s.Clean mapping)
    (hrequest : s.UpperCase mapping request = ∀ nir, s.signup session = some nir → upper mapping nir = nir)
    (hnir : s.signup session = some nir)
    (h : (s.setSignup session none).save pk { nir, lackOfNirReason := none } = some s') :
    Writes mapping s s' request pk { nir, lackOfNirReason := none } := by
  obtain ⟨hconstraints, rfl⟩ := save_spec h
  refine ⟨hconstraints, rfl, hs.signup session nir hnir, ?_⟩
  rw [hrequest]
  simp only [hnir, Option.some.injEq, forall_eq']

theorem strip_of_canonical {nir : Text} (h : IsCanonical mapping nir) : strip nir = nir := by
  refine strip_eq_self fun c hc => ?_
  have hchar := isNirChar_of_validateNir h.accepted c (by rwa [removeSpaces_eq_self h.noSpace, h.upperCase])
  exact (isNirChar_spec hchar).2.2.2.1

/-- A request writes no profile, or one. -/
theorem writes_of_handle {request : Request} (hs : s.Clean mapping) (hstored : s.StoredCanonical mapping)
    (h : s.handle mapping request = some s') :
    s'.profiles = s.profiles ∧ s.UpperCase mapping request ∨ ∃ pk profile, Writes mapping s s' request pk profile := by
  have hcanonical : ∀ {pk profile}, s.profiles.lookup pk = some profile →
      profile.nir = [] ∨ IsCanonical mapping profile.nir := fun hprofile =>
    Decidable.or_iff_not_imp_left.mpr (hstored _ _ hprofile)
  cases request with
  | jobSeekerSignupInfo session skip typed accepts =>
      obtain ⟨nir, _, rfl⟩ := Option.map_eq_some_iff.mp h
      exact Or.inl ⟨rfl, trivial⟩
  | jobSeekerCredentials session pk =>
      simp only [State.handle, jobSeekerCredentials, Option.ite_none_left_eq_some] at h
      obtain ⟨nir, hnir, h⟩ := Option.bind_eq_some_iff.mp h.2
      exact Or.inr ⟨pk, _, writes_of_signup hs rfl hnir h⟩
  | ssoLogin session pk =>
      obtain ⟨nir, hnir, h⟩ := Option.bind_eq_some_iff.mp h
      exact Or.inr ⟨pk, _, writes_of_signup hs rfl hnir h⟩
  | checkNirForJobSeeker jobSeeker typed =>
      obtain ⟨_, _, h⟩ := Option.bind_eq_some_iff.mp h
      obtain ⟨form, hform, h⟩ := Option.bind_eq_some_iff.mp h
      have hnir := (CheckJobSeekerNirForm.clean_spec hform).2.1
      exact Or.inr ⟨jobSeeker, _, writes_of_canonical trivial rfl h (Or.inr hnir)⟩
  | getOrCreateStart session =>
      cases h
      exact Or.inl ⟨rfl, trivial⟩
  | joinGroupFromNir session typed =>
      obtain ⟨nir, _, rfl⟩ := setNir_spec h
      exact Or.inl ⟨rfl, trivial⟩
  | checkNirForSender session typed =>
      obtain ⟨value, _, h⟩ := Option.bind_eq_some_iff.mp h
      obtain ⟨nir, _, rfl⟩ := setNir_spec h
      exact Or.inl ⟨rfl, trivial⟩
  | searchByEmail session found confirm mayAddNir =>
      obtain ⟨value, hvalue, h⟩ := Option.bind_eq_some_iff.mp h
      cases found with
      | none =>
          cases h
          exact Or.inl ⟨rfl, trivial⟩
      | some jobSeeker =>
          obtain ⟨profile, _, h⟩ := Option.bind_eq_some_iff.mp h
          obtain ⟨nir, hnir, h⟩ := Option.bind_eq_some_iff.mp h
          have hclean := hs.getOrCreate session value nir hvalue hnir
          exact Or.inr ⟨jobSeeker, _, writes_of_canonical trivial rfl (Option.ite_none_right_eq_some.mp h).2 hclean⟩
  | createStep1 session data accepts =>
      obtain ⟨value, _, h⟩ := Option.bind_eq_some_iff.mp h
      obtain ⟨profile, _, rfl⟩ := Option.map_eq_some_iff.mp h
      exact Or.inl ⟨rfl, trivial⟩
  | createStepEnd session pk =>
      simp only [State.handle, createStepEnd, Option.ite_none_left_eq_some] at h
      obtain ⟨value, hvalue, h⟩ := Option.bind_eq_some_iff.mp h.2
      obtain ⟨nir, hnir, h⟩ := Option.bind_eq_some_iff.mp h
      have hclean := hs.getOrCreate session value nir (Option.filter_eq_some_iff.mp hvalue).1 hnir
      exact Or.inr ⟨pk, _, writes_of_canonical (t := s.setGetOrCreate session none) trivial rfl h hclean⟩
  | updateStart session jobSeeker =>
      cases h
      exact Or.inl ⟨rfl, trivial⟩
  | updateStep1 session data accepts =>
      obtain ⟨value, _, h⟩ := Option.bind_eq_some_iff.mp h
      obtain ⟨old, _, h⟩ := Option.bind_eq_some_iff.mp h
      obtain ⟨profile, _, rfl⟩ := Option.map_eq_some_iff.mp h
      exact Or.inl ⟨rfl, trivial⟩
  | updateStepEnd session =>
      obtain ⟨value, hvalue, h⟩ := Option.bind_eq_some_iff.mp h
      obtain ⟨profile, hprofile, h⟩ := Option.bind_eq_some_iff.mp h
      have hold := hcanonical hprofile
      refine Or.inr ⟨value.jobSeekerPk, _, writes_of_canonical (t := s.setUpdate session none) trivial rfl h ?_⟩
      cases hnir : value.profile.nir with
      | none => exact hold
      | some nir => exact hs.update session value nir hvalue hnir
  | editJobSeekerInfo jobSeeker data accepts =>
      obtain ⟨initial, _, h⟩ := Option.bind_eq_some_iff.mp h
      obtain ⟨profile, hprofile, h⟩ := Option.bind_eq_some_iff.mp h
      obtain ⟨cleaned, hcleaned, hprofile⟩ := Option.bind_eq_some_iff.mp hprofile
      obtain ⟨rfl, _⟩ := JobSeekerProfileFieldsMixin.postClean_spec hprofile
      have hclean := JobSeekerNIRUpdateMixin.clean_spec (Option.filter_eq_some_iff.mp hcleaned).1
      exact Or.inr ⟨jobSeeker, _, writes_of_canonical trivial rfl h hclean⟩
  | createEmployeeRecord jobSeeker data accepts =>
      obtain ⟨initial, hinitial, h⟩ := Option.bind_eq_some_iff.mp h
      obtain ⟨profile, hprofile, h⟩ := Option.bind_eq_some_iff.mp h
      obtain ⟨cleaned, hcleaned, hprofile⟩ := Option.bind_eq_some_iff.mp hprofile
      obtain ⟨rfl, hvalid⟩ := JobSeekerProfileFieldsMixin.postClean_spec hprofile
      have hnir := NewEmployeeRecordJobSeekerForm.clean_spec (Option.filter_eq_some_iff.mp hcleaned).1
      by_cases hdisabled : initial.nir ≠ [] ∨ data.lackOfNir
      · -- The field is disabled: the number stays as it is.
        rw [if_pos hdisabled] at hnir
        refine Or.inr ⟨jobSeeker, profile, writes_of_canonical ?_ rfl h ?_⟩
        · intro other hother hempty hlack
          cases hinitial.symm.trans hother
          simp [hempty, hlack] at hdisabled
        · rcases hcanonical hinitial with hempty | hclean
          · exact Or.inl (by rw [hnir, hempty]; rfl)
          · exact Or.inr (by rwa [hnir, strip_of_canonical hclean])
      · rw [if_neg hdisabled] at hnir
        obtain ⟨hconstraints, rfl⟩ := save_spec h
        refine Or.inr ⟨jobSeeker, profile, hconstraints, rfl, ?_, ?_⟩
        · exact hvalid.imp_right fun hvalid => cleaned_of_length hvalid.1 hvalid.2
        · simp only [not_or, ne_eq, not_not, Bool.not_eq_true] at hdisabled
          rw [hnir]
          constructor
          · intro hupper
            exact hupper initial hinitial hdisabled.1 hdisabled.2
          · intro hupper _ _ _ _
            exact hupper

/-! ## The laws after a request -/

theorem Writes.storedCanonical {request : Request} {pk : Nat} {profile : JobSeekerProfile}
    (h : Writes mapping s s' request pk profile) (hstored : s.StoredCanonical mapping)
    (hrequest : s.UpperCase mapping request) : s'.StoredCanonical mapping := by
  intro pk' profile' hprofile' hne
  rw [h.profiles] at hprofile'
  by_cases hpk : pk' = pk
  · subst hpk
    rw [AList.lookup_insert] at hprofile'
    cases hprofile'
    exact (h.cleaned.resolve_left hne).isCanonical_iff.mpr (h.upperCase.mp hrequest)
  · rw [AList.lookup_insert_ne hpk] at hprofile'
    exact hstored pk' profile' hprofile' hne

/-- A number is written for one job seeker only, since the others have canonical numbers that are not the same. -/
theorem Writes.oneAccount {request : Request} {pk : Nat} {profile : JobSeekerProfile}
    (h : Writes mapping s s' request pk profile) (hstored : s'.StoredCanonical mapping)
    (hunique : s.OneAccount mapping) : s'.OneAccount mapping := by
  intro pk₁ pk₂ profile₁ profile₂ h₁ h₂ hne₁ hne₂ hcanonical
  have heq : profile₁.nir = profile₂.nir := by
    rwa [(hstored pk₁ profile₁ h₁ hne₁).canonical_eq, (hstored pk₂ profile₂ h₂ hne₂).canonical_eq] at hcanonical
  rw [h.profiles] at h₁ h₂
  by_cases hpk₁ : pk₁ = pk
  · by_cases hpk₂ : pk₂ = pk
    · rw [hpk₁, hpk₂]
    · subst hpk₁
      rw [AList.lookup_insert] at h₁
      rw [AList.lookup_insert_ne hpk₂] at h₂
      cases h₁
      exact absurd heq.symm (Profiles.nir_ne_of_constraints h.constraints hne₁ hpk₂ h₂)
  · rw [AList.lookup_insert_ne hpk₁] at h₁
    by_cases hpk₂ : pk₂ = pk
    · subst hpk₂
      rw [AList.lookup_insert] at h₂
      cases h₂
      exact absurd heq (Profiles.nir_ne_of_constraints h.constraints hne₂ hpk₁ h₁)
    · rw [AList.lookup_insert_ne hpk₂] at h₂
      exact hunique pk₁ pk₂ profile₁ profile₂ h₁ h₂ hne₁ hne₂ hcanonical

end State

end Itou.Nir
