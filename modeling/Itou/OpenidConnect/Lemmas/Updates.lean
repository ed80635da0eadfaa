import Itou.OpenidConnect.Lemmas.Accounts

/-!
# What ProConnect writes

When an update of an account changes it, and when the constraints refuse the row.
-/

namespace Itou.OpenidConnect

variable {citext : String → String} {env : Environment} {info : UserInfo} {users users' : Users citext} {u v : User}

/-! ## The history -/

section

variable {history : List HistoryEntry} {provider : IdentityProvider} {assertion : UserField × String}

theorem prefix_updateHistoryField (history : List HistoryEntry) (assertion : UserField × String) :
    history <+: User.updateHistoryField env.lower env.now provider history assertion := by
  simp only [User.updateHistoryField]
  split
  · exact List.prefix_refl _
  · split
    · exact List.prefix_refl _
    · exact List.prefix_append _ _

theorem prefix_foldl_updateHistoryField (assertions : List (UserField × String)) :
    history <+: assertions.foldl (User.updateHistoryField env.lower env.now provider) history := by
  induction assertions generalizing history with
  | nil => exact List.prefix_refl _
  | cons assertion assertions ih => exact (prefix_updateHistoryField history assertion).trans ih

/-- An entry is appended unless the assertion is recorded. -/
theorem updateHistoryField_eq_iff : User.updateHistoryField env.lower env.now provider history assertion = history ↔
    Recorded env history assertion := by
  simp only [User.updateHistoryField, Recorded]
  cases ((history.filter fun entry => entry.fieldName = assertion.1).getLast?).map HistoryEntry.value with
  | none => simp
  | some value =>
      simp only [Option.some.injEq, Option.any_some, exists_eq_left']
      by_cases heq : value = assertion.2
      · simp [heq]
      · simp only [heq, if_false, false_or]
        split
        · rename_i hcase
          simpa using hcase
        · rename_i hcase
          simpa using hcase

/-- The history is the same when all the assertions are recorded. -/
theorem foldl_updateHistoryField_eq_iff {assertions : List (UserField × String)} :
    assertions.foldl (User.updateHistoryField env.lower env.now provider) history = history ↔
      ∀ assertion ∈ assertions, Recorded env history assertion := by
  induction assertions with
  | nil => simp
  | cons assertion assertions ih =>
      have hassertion : User.updateHistoryField env.lower env.now provider history assertion = history ↔
          Recorded env history assertion := updateHistoryField_eq_iff
      rw [List.foldl_cons, List.forall_mem_cons, ← hassertion, ← ih]
      constructor
      · intro h
        have hfirst : User.updateHistoryField env.lower env.now provider history assertion = history := by
          refine (prefix_updateHistoryField history assertion).eq_of_length_le ?_ |>.symm
          exact (prefix_foldl_updateHistoryField assertions).length_le.trans_eq (congrArg List.length h)
        exact ⟨hfirst, by rwa [hfirst] at h⟩
      · rintro ⟨hfirst, hrest⟩
        rw [hfirst]
        exact hrest

end

/-! ## The row -/

namespace OIDConnectUserData

theorem setattr_eq_iff {old value : String} : setattr old value = old ↔ (value ≠ "" → old = value) := by
  unfold setattr
  split
  · rename_i hvalue
    exact iff_of_true rfl fun hne => absurd hvalue hne
  · rename_i hvalue
    exact ⟨fun h _ => h.symm, fun h => (h hvalue).symm⟩

/-- The row of a professional that ProConnect updates. -/
theorem updated_proConnect (env : Environment) (info : UserInfo) (hkind : u.kind = .professional) (hchecked : u.Checked) :
    (proConnectUserData info).updated env false u = { u with
      username := setattr u.username info.sub
      email := if info.email = "" then u.email else some info.email
      firstName := setattr u.firstName info.givenName
      lastName := setattr u.lastName info.familyName
      identityProvider := .proConnect
      externalDataSourceHistory := (proConnectUserData info).assertions.foldl
        (User.updateHistoryField env.lower env.now .proConnect) u.externalDataSourceHistory
      allowNextSsoSubUpdate := false } := by
  have hstaff : u.isStaff = false := by
    have hstaff := hchecked.2
    simpa [User.staffAndSuperusers, hkind] using hstaff
  have hprofile : (proConnectUserData info).assignProfile u = u.jobseekerProfile := by
    simp [assignProfile, proConnectUserData]
  cases u with
  | mk pk username email firstName lastName title kind identityProvider isActive isStaff allow history profile =>
      dsimp only at hkind hstaff
      subst hkind hstaff
      simp only [updated, hprofile]
      rfl

theorem updated_eq_self_iff (hkind : u.kind = .professional) (hchecked : u.Checked) :
    (proConnectUserData info).updated env false u = u ↔ (proConnectUserData info).UpToDate env u := by
  rw [updated_proConnect env info hkind hchecked]
  constructor
  · intro h
    obtain ⟨-, husername, hemail, hfirst, hlast, -, -, hprovider, -, -, hallow, hhistory, -⟩ := User.mk.inj h
    refine ⟨setattr_eq_iff.mp husername, fun hne => ?_, setattr_eq_iff.mp hfirst, setattr_eq_iff.mp hlast,
      hprovider.symm, hallow.symm, foldl_updateHistoryField_eq_iff.mp hhistory⟩
    exact (if_neg hne ▸ hemail).symm
  · rintro ⟨husername, hemail, hfirst, hlast, hprovider, hallow, hhistory⟩
    have hemail' : (if info.email = "" then u.email else some info.email) = u.email := by
      split
      · rfl
      · rename_i hne
        exact (hemail hne).symm
    have husername' : setattr u.username info.sub = u.username := setattr_eq_iff.mpr husername
    have hfirst' : setattr u.firstName info.givenName = u.firstName := setattr_eq_iff.mpr hfirst
    have hlast' : setattr u.lastName info.familyName = u.lastName := setattr_eq_iff.mpr hlast
    rw [husername', hemail', hfirst', hlast', foldl_updateHistoryField_eq_iff.mpr hhistory, ← hallow]
    exact congrArg (fun provider => { u with identityProvider := provider }) hprovider.symm

/-- No other account has the e-mail of the account that is updated. -/
theorem not_hasEmail_of_account {data : OIDConnectUserData} {loginOnly : Bool}
    (h : data.account users loginOnly = .ok (some u)) (hv : v ∈ users.rows) (hne : v.pk ≠ u.pk) :
    v.hasEmail citext data.email = false := by
  unfold account at h
  split at h
  · split at h
    · cases h
    · rename_i hother
      cases h
      have hmissing := List.find?_eq_none.mp hother v hv
      simpa [hne] using hmissing
  · split at h
    · rename_i user hemail
      have huser : user = u := by
        split at h
        · split at h
          · cases h
            rfl
          · cases h
        · split at h
          · cases h
            rfl
          · split at h
            · cases h
            · cases h
      subst huser
      obtain ⟨hmem, hhas⟩ := byEmail_eq_some hemail
      by_contra hvemail
      exact hne (congrArg User.pk (Users.eq_of_email hv hmem (Bool.not_eq_false _ ▸ hvemail) hhas))
    · split at h
      · cases h
      · cases h

/-- The constraints refuse the update exactly when another account has the sub as its username. -/
theorem update_isNone_iff (env : Environment) {loginOnly : Bool}
    (h : (proConnectUserData info).account users loginOnly = .ok (some u))
    (hkind : u.kind = .professional) :
    users.update ((proConnectUserData info).updated env false u) = none ↔
      (proConnectUserData info).IsTaken users u := by
  obtain ⟨hmem, -⟩ := account_eq_ok h
  have hrow := updated_proConnect env info hkind (users.checked u hmem)
  constructor
  · intro hnone
    by_contra htaken
    have hchecked : ((proConnectUserData info).updated env false u).Checked := by
      rw [hrow]
      exact ⟨decide_eq_true hkind, (users.checked u hmem).2⟩
    have hdistinct : ∀ v ∈ users.rows, v.pk ≠ ((proConnectUserData info).updated env false u).pk →
        v.Distinct citext ((proConnectUserData info).updated env false u) := by
      intro v hv hne
      rw [updated_pk] at hne
      have hbefore := users.distinct.forall hv hmem fun heq => hne (congrArg User.pk heq)
      rw [hrow]
      refine ⟨hne, ?_, ?_, hbefore.nir⟩
      · simp only [setattr]
        split
        · exact hbefore.username
        · rename_i hsub
          exact fun heq => htaken ⟨hsub, v, hv, hne, heq⟩
      · dsimp only
        split
        · exact hbefore.email
        · intro e he e' he' heq
          cases he'
          have hmissing : v.hasEmail citext info.email = false := not_hasEmail_of_account h hv hne
          rw [User.hasEmail, Option.mem_def.mp he] at hmissing
          exact absurd heq (of_decide_eq_false hmissing)
    obtain ⟨users', hupdate⟩ := Users.exists_update hchecked hdistinct
    rw [hnone] at hupdate
    cases hupdate
  · rintro ⟨hsub, v, hv, hne, husername⟩
    by_contra hsome
    obtain ⟨users', hupdate⟩ := Option.ne_none_iff_exists'.mp hsome
    have hself := Users.mem_update hupdate ⟨u, hmem, updated_pk.symm⟩
    have hother := (Users.update_onlyRow hupdate v fun heq => hne (heq.trans updated_pk)).mpr hv
    have hsame := Users.eq_of_not_distinct hother hself fun hdistinct => hdistinct.username (by
      rw [hrow]
      exact husername.trans (if_neg hsub).symm)
    exact hne ((congrArg User.pk hsame).trans updated_pk)

/-- The update of the account changes the table exactly when it changes the account. -/
theorem users_eq_iff (hu : u ∈ users.rows) (hpk : v.pk = u.pk) (h : users.update v = some users') :
    users' = users ↔ v = u := by
  constructor
  · rintro rfl
    exact Users.eq_of_pk (Users.mem_update h ⟨u, hu, hpk.symm⟩) hu hpk
  · rintro rfl
    exact Option.some.inj (h.symm.trans (Users.update_self hu))

/-! ## A new account -/

theorem newUser_distinct {data : OIDConnectUserData} (h : ¬ data.CannotCreate env users) (hkind : data.kind = .professional)
    (hv : v ∈ users.rows) : v.Distinct citext (data.newUser env users) := by
  simp only [CannotCreate, not_or, not_exists, not_and] at h
  obtain ⟨husername, hemail⟩ := h.2 v hv
  refine ⟨Users.ne_freshPk hv, husername, fun e he e' he' heq => ?_, fun p _ p' hp' => ?_⟩
  · cases he'
    exact hemail (by simpa [User.hasEmail, Option.mem_def.mp he] using heq)
  · simp [newUser, hkind] at hp'

end OIDConnectUserData

end Itou.OpenidConnect
