import Itou.Nir.Lemmas.Entries
import Itou.Nir.Lemmas.Shapes

/-!
# Theorems on social security numbers
-/

namespace Itou.Nir

open Itou.Lib

namespace State

variable {mapping : CaseMapping} {s s' : State}

/-- After one request, the law holds exactly when no letter in lower case was kept. -/
theorem oneNumberOneAccount_handle_iff {request : Request} (hs : s.Clean mapping)
    (hlaw : s.OneNumberOneAccount mapping) (h : s.handle mapping request = some s') :
    s'.OneNumberOneAccount mapping ↔ s.UpperCase mapping request := by
  rcases writes_of_handle hs hlaw.stored h with ⟨hsame, hrequest⟩ | ⟨pk, profile, hwrites⟩
  · refine iff_of_true ⟨?_, ?_, ?_⟩ hrequest
    · simpa only [StoredCanonical, hsame] using hlaw.stored
    · simpa only [OneAccount, hsame] using hlaw.unique
    · simpa only [FindsAccount, hsame] using hlaw.finds
  · constructor
    · intro hlaw'
      rw [hwrites.upperCase]
      by_cases hempty : profile.nir = []
      · rw [hempty]
        rfl
      · have hlookup : s'.profiles.lookup pk = some profile := by rw [hwrites.profiles, AList.lookup_insert]
        exact (hlaw'.stored pk profile hlookup hempty).upperCase
    · intro hrequest
      have hstored := hwrites.storedCanonical hlaw.stored hrequest
      have hunique := hwrites.oneAccount hstored hlaw.unique
      exact ⟨hstored, hunique, findsAccount hstored hunique⟩

/-- Along a run, every number is canonical, is that of one job seeker and finds them exactly when the numbers that are kept
as they were typed have no letter in lower case. -/
theorem oneNumberOneAccount_iff_upperCase (hs : s.Fresh) (hlaw : s.OneNumberOneAccount mapping)
    (requests : List Request) :
    AllStates (State.handle mapping) (OneNumberOneAccount mapping) s requests ↔
      AllSteps (State.handle mapping) (UpperCase mapping) s requests := by
  have hkeep : ∀ (s : State) request s', s.Clean mapping → s.OneNumberOneAccount mapping →
      s.handle mapping request = some s' → s'.Clean mapping := fun s request s' hclean _ h => hclean.handle h
  have hexact : ∀ (s : State) request s', s.Clean mapping → s.OneNumberOneAccount mapping →
      s.handle mapping request = some s' → (s'.OneNumberOneAccount mapping ↔ s.UpperCase mapping request) :=
    fun s request s' hclean hlaw h => oneNumberOneAccount_handle_iff hclean hlaw h
  exact allStates_iff_allSteps hkeep hexact hs.clean hlaw

/-! ## A number of Corsica -/

/-- One job seeker, whose number has the letter of a department of Corsica. -/
def corsican : State where
  profiles := AList.insert 1
    { nir := ['1', '4', '1', '0', '6', '2', 'A', '7', '8', '2', '0', '0', '5', '5', '5'], lackOfNirReason := none } ∅
  signup _ := none
  getOrCreate _ := none
  update _ := none

/-- Someone signs up with the same number, typed with a letter in lower case. -/
def corsicanSignup : List Request :=
  [.jobSeekerSignupInfo 0 false ['1', '4', '1', '0', '6', '2', 'a', '7', '8', '2', '0', '0', '5', '5', '5'] fun _ => true,
    .jobSeekerCredentials 0 2]

theorem corsican_fresh : corsican.Fresh := fun _ => ⟨rfl, rfl, rfl⟩

theorem corsican_lookup {pk : Nat} {profile : JobSeekerProfile} (h : corsican.profiles.lookup pk = some profile) :
    pk = 1 ∧ profile.nir = ['1', '4', '1', '0', '6', '2', 'A', '7', '8', '2', '0', '0', '5', '5', '5'] := by
  by_cases hpk : pk = 1
  · subst hpk
    rw [corsican, AList.lookup_insert] at h
    cases h
    exact ⟨rfl, rfl⟩
  · rw [corsican, AList.lookup_insert_ne hpk, AList.lookup_empty] at h
    cases h

theorem corsican_law : corsican.OneNumberOneAccount .ascii := by
  have hstored : corsican.StoredCanonical .ascii := by
    intro pk profile h _
    rw [(corsican_lookup h).2]
    exact ⟨by decide, by decide, by decide, by decide +kernel⟩
  have hunique : corsican.OneAccount .ascii := by
    intro pk pk' profile profile' h h' _ _ _
    rw [(corsican_lookup h).1, (corsican_lookup h').1]
  exact ⟨hstored, hunique, findsAccount hstored hunique⟩

theorem oneNumberOneAccount_corsican :
    AllStates (State.handle .ascii) (OneNumberOneAccount .ascii) corsican corsicanSignup ↔
      AllSteps (State.handle .ascii) (UpperCase .ascii) corsican corsicanSignup :=
  oneNumberOneAccount_iff_upperCase corsican_fresh corsican_law corsicanSignup

/-- The law does not hold of every run: the second account has the same number as the first. -/
theorem duplicate_corsican :
    ¬ ∀ (mapping : CaseMapping) (s : State) (requests : List Request), s.Fresh → s.OneNumberOneAccount mapping →
      AllStates (State.handle mapping) (OneNumberOneAccount mapping) s requests := by
  intro hall
  have hlaw := hall .ascii corsican corsicanSignup corsican_fresh corsican_law
  have hrun : (run (State.handle .ascii) corsican corsicanSignup).map
      (fun s => ((s.profiles.lookup 1).map JobSeekerProfile.nir, (s.profiles.lookup 2).map JobSeekerProfile.nir)) =
        some (some ['1', '4', '1', '0', '6', '2', 'A', '7', '8', '2', '0', '0', '5', '5', '5'],
          some ['1', '4', '1', '0', '6', '2', 'a', '7', '8', '2', '0', '0', '5', '5', '5']) := by
    decide +kernel
  obtain ⟨s', hs', hlookups⟩ := Option.map_eq_some_iff.mp hrun
  obtain ⟨h₁, h₂⟩ := Prod.mk.inj hlookups
  obtain ⟨profile₁, hprofile₁, hnir₁⟩ := Option.map_eq_some_iff.mp h₁
  obtain ⟨profile₂, hprofile₂, hnir₂⟩ := Option.map_eq_some_iff.mp h₂
  have hsame : (1 : Nat) = 2 := by
    refine (hlaw.last hs').unique 1 2 profile₁ profile₂ hprofile₁ hprofile₂ ?_ ?_ ?_
    · rw [hnir₁]
      exact List.cons_ne_nil _ _
    · rw [hnir₂]
      exact List.cons_ne_nil _ _
    · rw [hnir₁, hnir₂]
      decide
  exact absurd hsame (by decide)

end State

/-! ## The validator -/

/-- `validate_nir` accepts the well-formed numbers only, and the accessors do not raise on them, exactly when no pair
2A or 2B out of the department stands for digits of a number. -/
theorem validatesNir_iff (mapping : CaseMapping) (nir : Text) :
    ValidatesNir mapping nir ↔ ¬ HasStrayPair (upper mapping (removeSpaces nir)) := by
  constructor
  · rintro ⟨haccepts, -⟩ ⟨⟨i, hi, hpair⟩, hnumber⟩
    exact not_isNumeric_of_pair hi hpair (haccepts.mp (validateNir_isOk_iff.mpr hnumber)).1
  · intro hnot
    have haccepts : (validateNir mapping nir).isOk ↔ IsWellFormed (upper mapping (removeSpaces nir)) := by
      rw [validateNir_isOk_iff]
      by_cases hall : ∀ i, HasPairAt (upper mapping (removeSpaces nir)) i → i = 5
      · rw [withAllDigits_eq hall, IsWellFormed, ne_eq, withDepartmentDigits_eq_example]
      · simp only [not_forall] at hall
        obtain ⟨i, hpair, hi⟩ := hall
        exact iff_of_false (fun hnumber => hnot ⟨⟨i, hi, hpair⟩, hnumber⟩)
          fun hwell => not_isNumeric_of_pair hi hpair hwell.1
    exact ⟨haccepts, fun hok => cleanFields_ne_valueError (haccepts.mp hok)⟩

/-- A text with the pair 2A at its start. -/
def strayPair : Text := ['2', 'A', '0', '0', '5', '3', '3', '3', '3', '3', '3', '3', '3', '2', '3']

/-- It is accepted as 1900533333333 and its key, and the accessor of the year raises on it. -/
theorem strayPair_accepted : (validateNir .ascii strayPair).isOk = true ∧
    cleanNirTitleBirthdateFields (upper .ascii (removeSpaces strayPair)) none (some (90, 5)) = .error .valueError ∧
    ¬ ValidatesNir .ascii strayPair :=
  ⟨by decide, by decide, fun h => h.accessors (by decide) none (some (90, 5)) (by decide)⟩

/-! ## The forms of a profile -/

namespace NirUpdateForm

/-- **A recorded number.** Whatever the other fields and the other profiles are, what a form saves is sound and keeps the
recorded number, exactly when the posted texts and the number it starts with leave the latter alone. -/
theorem keeps_iff_leavesNir (mapping : CaseMapping) (form : NirUpdateForm) (stored : StoredProfile) (post : PostData) :
    (∀ profiles pk accepts saved,
      form.save mapping profiles pk stored.toJobSeekerProfile post accepts = some saved →
        Keeps mapping stored.toJobSeekerProfile saved) ↔
      form.LeavesNir mapping stored.toJobSeekerProfile post := by
  constructor
  · intro h hstored hfields data hdata nir hnir
    cases hbox : data.lackOfNir with
    | true =>
        rw [if_pos rfl]
        by_contra hreason
        have hsaved : form.save mapping ∅ none stored.toJobSeekerProfile post (fun _ => true) =
            some ⟨[], data.lackOfNirReason⟩ := save_alone hfields hdata hnir (by
          rw [if_pos hbox]
          exact ⟨Option.isSome_iff_ne_none.mpr hreason, rfl⟩)
        exact hstored ((h _ _ _ _ hsaved).kept hstored).symm
    | false =>
        rw [if_neg Bool.false_ne_true]
        by_cases hempty : nir = []
        · exact Or.inl hempty
        · have hsaved : form.save mapping ∅ none stored.toJobSeekerProfile post (fun _ => true) =
              some ⟨canonical mapping nir, none⟩ := save_alone hfields hdata hnir (by
            rw [hbox, if_neg Bool.false_ne_true]
            exact ⟨hempty, rfl⟩)
          exact Or.inr ((h _ _ _ _ hsaved).kept hstored)
  · intro hleaves profiles pk accepts saved hsaved
    exact keeps_of_leavesNir stored.reasonOrNir hleaves hsaved

/-- A profile with a number. -/
def numbered : StoredProfile where
  nir := "141068078200557".toList
  lackOfNirReason := none
  reasonOrNir := Or.inl rfl

/-- The hidden box is posted with a reason. -/
def hiddenBox : PostData where
  nir := none
  lackOfNir := some "on".toList
  lackOfNirReason := some "NO_NIR".toList

theorem hiddenBox_erases :
    editJobSeekerInfoForm.save .ascii ∅ none numbered.toJobSeekerProfile hiddenBox (fun _ => true) =
        some ⟨[], some .noNir⟩ ∧
      ¬ Keeps .ascii numbered.toJobSeekerProfile ⟨[], some .noNir⟩ :=
  ⟨by decide +kernel, fun h => absurd (h.kept (by decide)) (by decide)⟩

end NirUpdateForm

end Itou.Nir
