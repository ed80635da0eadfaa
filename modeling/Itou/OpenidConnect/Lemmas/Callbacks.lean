import Itou.OpenidConnect.Lemmas.Invitations
import Itou.OpenidConnect.Lemmas.Updates

/-!
# The answers of the callbacks

FranceConnect is always safe. ProConnect opens a session for an account that is in conflict without looking at whether
it is active, and updates the account before it refuses another e-mail.
-/

namespace Itou.OpenidConnect

open Itou.Organizations (Invitation)

variable {citext : String → String} {env : Environment} {data : OIDConnectUserData} {db db' : Db citext}
  {users users' : Users citext} {user u : User} {info : UserInfo}

/-! ## Safe answers -/

theorem KeepsReadonly.refl (u : User) : KeepsReadonly u u := ⟨fun _ => rfl, fun _ => rfl, fun _ => rfl, fun _ => rfl⟩

/-- A refusal that changes no account. -/
theorem IsSafe.unchanged (data : OIDConnectUserData) (db : Db citext) : IsSafe data db ⟨none, db⟩ where
  session := by
    rintro pk ⟨⟩
  inactive u _ _ := ⟨nofun, fun _ i hi _ hopen => ⟨i, hi, rfl, hopen⟩⟩
  kinds u hu u' hu' hpk := congrArg User.kind (Users.eq_of_pk hu' hu hpk)
  readonly u hu u' hu' hpk := Users.eq_of_pk hu' hu hpk ▸ KeepsReadonly.refl u'
  refused _ := rfl

/-- A session for an account that may log in. -/
theorem IsSafe.of_loggedIn (h : LoggedIn data db.users users' user)
    (hothers : KeepsOthers user.email { db with users := users' } db') : IsSafe data db ⟨some user.pk, db'⟩ where
  session := by
    rintro pk ⟨⟩
    have husers : db'.users = users' := hothers.users
    exact ⟨h.mayLogIn, user, husers ▸ h.mem, rfl, h.isActive, h.kind⟩
  inactive u hu hinactive := by
    have hne : u.pk ≠ user.pk := fun hpk => by
      rw [(h.kept u hu hpk).1] at hinactive
      cases hinactive
    refine ⟨fun heq => hne (Option.some.inj heq).symm, fun kind i hi hemail hopen => ?_⟩
    have hother : some i.email ≠ user.email := by
      intro heq
      have hhas : user.hasEmail citext i.email = true := by simp [User.hasEmail, ← heq]
      exact hne (congrArg User.pk (Users.eq_of_email ((h.onlyRow u hne).mpr hu) h.mem hemail hhas))
    obtain ⟨i', hi', hid, -, hopen'⟩ := hothers.invitations kind i hi hother hopen
    exact ⟨i', hi', hid, hopen'⟩
  kinds u hu u' hu' hpk := by
    have husers : db'.users = users' := hothers.users
    have hmem : u' ∈ users'.rows := husers ▸ hu'
    by_cases hself : u'.pk = user.pk
    · obtain rfl := Users.eq_of_pk hmem h.mem hself
      exact (h.kept u hu hpk.symm).2.1
    · exact congrArg User.kind (Users.eq_of_pk ((h.onlyRow u' hself).mp hmem) hu hpk)
  readonly u hu u' hu' hpk := by
    have husers : db'.users = users' := hothers.users
    have hmem : u' ∈ users'.rows := husers ▸ hu'
    by_cases hself : u'.pk = user.pk
    · obtain rfl := Users.eq_of_pk hmem h.mem hself
      exact (h.kept u hu hpk.symm).2.2
    · obtain rfl := Users.eq_of_pk ((h.onlyRow u' hself).mp hmem) hu hpk
      exact KeepsReadonly.refl u'
  refused := nofun

/-- Safety of the answer that a refusal gives. -/
theorem isSafe_refused_iff : IsSafe data db ⟨none, { db with users := users' }⟩ ↔ users' = db.users :=
  ⟨fun h => h.refused rfl, fun h => h ▸ IsSafe.unchanged data db⟩

/-! ## FranceConnect -/

/-- The NIR of the session goes to the account that logs in. -/
theorem LoggedIn.initUserNirFromSession {nir : Option String} {users'' : Users citext}
    (h : LoggedIn data users users' user) (hnir : OpenidConnect.initUserNirFromSession users' user nir = some users'') :
    ∃ user', user'.pk = user.pk ∧ LoggedIn data users users'' user' := by
  unfold OpenidConnect.initUserNirFromSession at hnir
  split at hnir
  · cases hnir
    exact ⟨user, rfl, h⟩
  · rename_i nir
    obtain ⟨profile, hprofile, hupdate⟩ := Option.bind_eq_some_iff.mp hnir
    have hmem := Users.mem_update hupdate ⟨user, h.mem, rfl⟩
    have honly := Users.update_onlyRow hupdate
    refine ⟨_, ?_, hmem, h.isActive, h.kind, h.mayLogIn, h.onlyRow.trans honly, fun u hu hpk => ?_⟩
    · rfl
    obtain ⟨hactive, hkind, hfirst, hlast, htitle, hbirthdate⟩ := h.kept u hu hpk
    refine ⟨hactive, hkind, hfirst, hlast, htitle, fun hreadonly => ?_⟩
    rw [← hbirthdate hreadonly, Option.mem_def.mp hprofile]
    simp only [Option.map_some, JobSeekerProfile.save]
    split
    · rfl
    · rfl

theorem franceConnect_isSafe (nir : Option String) (info : UserInfo) (db : Db citext) :
    IsSafe (franceConnectUserData info) db ((Login.franceConnect nir info).respond env db) := by
  have hkind : (franceConnectUserData info).kind ∈ (franceConnectUserData info).loginAllowedUserKinds :=
    List.mem_singleton_self _
  unfold Login.respond Login.callback franceConnectCallback
  simp only
  cases houtcome : (franceConnectUserData info).createOrUpdateUser env db.users false with
  | mk users' result =>
      cases result with
      | ok user =>
          have hlogged := OIDConnectUserData.createOrUpdateUser_ok houtcome
          simp only
          cases hnir : initUserNirFromSession users' user nir with
          | none => exact IsSafe.unchanged _ db
          | some users'' =>
              obtain ⟨user', hpk, hlogged'⟩ := hlogged.initUserNirFromSession hnir
              have hsafe : IsSafe (franceConnectUserData info) db ⟨some user'.pk, { db with users := users'' }⟩ :=
                IsSafe.of_loggedIn hlogged' KeepsOthers.refl
              exact hpk ▸ hsafe
      | error e =>
          have hsame : e ≠ .failure → users' = db.users := fun hne =>
            (OIDConnectUserData.createOrUpdateUser_error hkind houtcome hne).1
          cases e with
          | failure => exact IsSafe.unchanged _ db
          | registerForbidden => exact IsSafe.unchanged _ db
          | multipleSubSameEmail _ => exact isSafe_refused_iff.mpr (hsame nofun)
          | emailInUse _ => exact isSafe_refused_iff.mpr (hsame nofun)
          | invalidKind _ => exact isSafe_refused_iff.mpr (hsame nofun)
          | multipleUsersFound _ _ => exact isSafe_refused_iff.mpr (hsame nofun)
          | inactiveUser _ => exact isSafe_refused_iff.mpr (hsame nofun)

/-! ## ProConnect -/

theorem proConnect_kind : (proConnectUserData info).kind ∈ (proConnectUserData info).loginAllowedUserKinds :=
  List.mem_singleton_self _

/-- The login of a professional does not fail. -/
theorem proConnectLogin_eq (env : Environment) (info : UserInfo) (hu : user ∈ db.users.rows) (hkind : user.kind = .professional) :
    ∃ db', proConnectLogin env info true db user = some ⟨some user.pk, db'⟩ ∧ KeepsOthers user.email db db' := by
  obtain ⟨joined, hjoined⟩ := KeepsOthers.exists_joinOrg env db user info.structureTravail
  have hkeeps : KeepsOthers user.email db joined := KeepsOthers.joinOrg hjoined
  obtain ⟨accepted, haccepted⟩ := KeepsOthers.exists_acceptAllPendingInvitations env
    (hkeeps.users ▸ hu) hkind
  refine ⟨accepted, ?_, hkeeps.trans (KeepsOthers.acceptAllPendingInvitations haccepted)⟩
  simp only [proConnectLogin, if_true, hjoined, haccepted, Option.bind_eq_bind, Option.bind_some]
  rfl

/-- A conflict between two accounts. -/
theorem createOrUpdateUser_of_account_error {loginOnly : Bool} {e : SsoException}
    (h : data.account users loginOnly = .error e) : data.createOrUpdateUser env users loginOnly = (users, .error e) := by
  rw [OIDConnectUserData.createOrUpdateUser, h]

/-- The account of the sub is a professional, whatever the conflict. -/
theorem bySub_proConnect (h : (proConnectUserData info).bySub users = some u) :
    u ∈ users.rows ∧ u.kind = .professional ∧ MayLogIn (proConnectUserData info) users u.pk := by
  obtain ⟨hmem, husername, hprovider⟩ := OIDConnectUserData.bySub_eq_some h
  have hchecked := (users.checked u hmem).1
  rw [User.identityProviderKind, hprovider] at hchecked
  exact ⟨hmem, of_decide_eq_true hchecked, Or.inl ⟨u, hmem, rfl, husername, hprovider⟩⟩

/-- The session of an account in conflict is safe when the account is active. -/
theorem multipleUsersFound_isSafe_iff (hsub : (proConnectUserData info).bySub db.users = some u)
    (hothers : KeepsOthers u.email db db') :
    IsSafe (proConnectUserData info) db ⟨some u.pk, db'⟩ ↔ u.isActive = true := by
  obtain ⟨hmem, hkind, hmay⟩ := bySub_proConnect hsub
  constructor
  · intro hsafe
    by_contra hinactive
    exact (hsafe.inactive u hmem (Bool.not_eq_true _ ▸ hinactive)).1 rfl
  · intro hactive
    refine IsSafe.of_loggedIn ⟨hmem, hactive, hkind ▸ List.mem_singleton_self _, hmay, fun _ _ => Iff.rfl, ?_⟩ hothers
    intro v hv hpk
    obtain rfl := Users.eq_of_pk hv hmem hpk
    exact ⟨hactive, rfl, KeepsReadonly.refl v⟩

/-! ## A login that began with another e-mail -/

/-- The second half of the condition. -/
def NothingToWrite (env : Environment) (info : UserInfo) (users : Users citext) (loginOnly : Bool) : Prop :=
  (∀ u, (proConnectUserData info).account users loginOnly = .ok (some u) → u.isActive = true →
      u.kind = .professional → (proConnectUserData info).IsTaken users u ∨ (proConnectUserData info).UpToDate env u) ∧
    ((proConnectUserData info).account users loginOnly = .ok none → (proConnectUserData info).CannotCreate env users)

/-- The update of an account that is found. -/
theorem nothingToWrite_of_found {loginOnly : Bool}
    (h : (proConnectUserData info).account users loginOnly = .ok (some u)) :
    NothingToWrite env info users loginOnly ↔
      (u.isActive = true → u.kind = .professional →
        (proConnectUserData info).IsTaken users u ∨ (proConnectUserData info).UpToDate env u) := by
  constructor
  · exact fun hnothing => hnothing.1 u h
  · intro hu
    refine ⟨fun v hv => ?_, fun hnone => ?_⟩
    · obtain rfl := Option.some.inj (Except.ok.inj (h.symm.trans hv))
      exact hu
    · cases h.symm.trans hnone

/-- What a creation or an update leaves is the same table exactly when there is nothing to write. -/
theorem createOrUpdateUser_ok_iff {loginOnly : Bool}
    (h : (proConnectUserData info).createOrUpdateUser env users loginOnly = (users', .ok user)) :
    users' = users ↔ NothingToWrite env info users loginOnly := by
  have hlogged := OIDConnectUserData.createOrUpdateUser_ok h
  unfold OIDConnectUserData.createOrUpdateUser at h
  split at h
  · cases h
  · rename_i found haccount
    obtain ⟨hmem, -⟩ := OIDConnectUserData.account_eq_ok haccount
    obtain ⟨rfl, hactive, hkinds, hupdate⟩ := OIDConnectUserData.checkAndSave_ok h
    have hkind : found.kind = .professional := List.mem_singleton.mp hkinds
    rw [OIDConnectUserData.users_eq_iff hmem OIDConnectUserData.updated_pk hupdate,
      OIDConnectUserData.updated_eq_self_iff hkind (users.checked found hmem), nothingToWrite_of_found haccount]
    have hfree : ¬ (proConnectUserData info).IsTaken users found := by
      intro htaken
      have hnone := (OIDConnectUserData.update_isNone_iff env haccount hkind).mpr htaken
      rw [hupdate] at hnone
      cases hnone
    exact ⟨fun hdate _ _ => Or.inr hdate, fun hcase => (hcase hactive hkind).resolve_left hfree⟩
  · rename_i haccount
    have hchanged : users' ≠ users := by
      intro heq
      split at h
      · cases h
      · split at h
        · cases h
        · obtain ⟨rfl, -⟩ := OIDConnectUserData.checkAndSave_ok h
          exact Users.ne_freshPk (heq ▸ hlogged.mem) OIDConnectUserData.updated_pk
    refine iff_of_false hchanged fun hnothing => ?_
    rcases hnothing.2 haccount with hempty | ⟨v, hv, htaken⟩
    · rw [if_pos hempty] at h
      cases h
    · split at h
      · cases h
      · split at h
        · cases h
        · rename_i inserted hinsert
          have hself := Users.mem_insert hinsert
          have hpk := Users.ne_freshPk hv
          have hother := (Users.insert_onlyRow hinsert v hpk).mpr hv
          refine hpk (congrArg User.pk (Users.eq_of_not_distinct hother hself fun hdistinct => ?_))
          rcases htaken with husername | hemail
          · exact hdistinct.username husername
          · obtain ⟨e, he, heq⟩ := (Option.any_eq_true _ _).mp hemail
            exact hdistinct.email e he _ rfl (of_decide_eq_true heq)

/-- A creation or an update that raises had nothing to write. -/
theorem nothingToWrite_of_error {loginOnly : Bool} {e : SsoException}
    (h : (proConnectUserData info).createOrUpdateUser env users loginOnly = (users', .error e)) :
    NothingToWrite env info users loginOnly := by
  unfold OIDConnectUserData.createOrUpdateUser at h
  split at h
  · rename_i haccount
    exact ⟨fun v hv => (by cases haccount.symm.trans hv), fun hnone => (by cases haccount.symm.trans hnone)⟩
  · rename_i found haccount
    refine (nothingToWrite_of_found haccount).mpr fun hactive hkind => Or.inl ?_
    refine (OIDConnectUserData.update_isNone_iff env haccount hkind).mp ?_
    have hkinds : found.kind ∈ (proConnectUserData info).loginAllowedUserKinds := hkind ▸ List.mem_singleton_self _
    simp only [OIDConnectUserData.checkAndSave, hactive, hkinds, not_true_eq_false, if_false, Bool.not_true,
      Bool.false_eq_true] at h
    split at h
    · rename_i hseeker
      cases hseeker
    · split at h
      · rename_i hnone
        exact hnone
      · cases h
  · rename_i haccount
    refine ⟨fun v hv => (by cases haccount.symm.trans hv), fun _ => ?_⟩
    by_contra hcan
    have hname : (proConnectUserData info).username ≠ "" := fun hempty => hcan (Or.inl hempty)
    obtain ⟨inserted, hinsert⟩ : ∃ inserted, users.insert ((proConnectUserData info).newUser env users) =
        some inserted :=
      Users.exists_insert ⟨rfl, rfl⟩ fun v hv => OIDConnectUserData.newUser_distinct hcan rfl hv
    rw [if_neg hname, hinsert] at h
    have hmem := Users.mem_insert hinsert
    obtain ⟨users'', hupdate⟩ : ∃ users'', inserted.update
        ((proConnectUserData info).updated env true ((proConnectUserData info).newUser env users)) = some users'' := by
      refine Users.exists_update ⟨rfl, rfl⟩ fun v hv hne => ?_
      have hdistinct := inserted.distinct.forall hv hmem fun heq =>
        hne ((congrArg User.pk heq).trans OIDConnectUserData.updated_pk.symm)
      exact ⟨hdistinct.pk, hdistinct.username, hdistinct.email, fun p hp p' hp' => (by cases hp')⟩
    simp only [OIDConnectUserData.checkAndSave, hupdate] at h
    cases h

end Itou.OpenidConnect
