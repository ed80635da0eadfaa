import Itou.OpenidConnect.Callbacks
import Mathlib.Data.List.Pairwise

/-!
# Accounts

What an update of one row keeps, and when the constraints allow it.

The account that it returns, and the accounts that it leaves when it raises.
-/

namespace Itou.OpenidConnect

/-! ## The table of the accounts -/

variable {citext : String → String} {users users' : Users citext} {u v : User}

theorem User.Distinct.symm (h : u.Distinct citext v) : v.Distinct citext u where
  pk := h.pk.symm
  username := h.username.symm
  email e he e' he' heq := h.email e' he' e he heq.symm
  nir p hp p' hp' hne heq := h.nir p' hp' p hp (heq ▸ hne) heq.symm

instance : Std.Symm (User.Distinct citext) := ⟨fun _ _ => User.Distinct.symm⟩

namespace Users

/-! ## Rows -/

/-- Two rows that agree on a unique column are one. -/
theorem eq_of_not_distinct (hu : u ∈ users.rows) (hv : v ∈ users.rows) (h : ¬ u.Distinct citext v) : u = v := by
  by_contra hne
  exact h (users.distinct.forall hu hv hne)

theorem eq_of_pk (hu : u ∈ users.rows) (hv : v ∈ users.rows) (h : u.pk = v.pk) : u = v :=
  eq_of_not_distinct hu hv fun hdistinct => hdistinct.pk h

theorem eq_of_email (hu : u ∈ users.rows) (hv : v ∈ users.rows) {email : String}
    (hue : u.hasEmail citext email = true) (hve : v.hasEmail citext email = true) : u = v := by
  obtain ⟨e, he, heq⟩ := (Option.any_eq_true _ _).mp hue
  obtain ⟨e', he', heq'⟩ := (Option.any_eq_true _ _).mp hve
  refine eq_of_not_distinct hu hv fun hdistinct => hdistinct.email e he e' he' ?_
  exact (of_decide_eq_true heq).trans (of_decide_eq_true heq').symm

theorem ne_freshPk (hu : u ∈ users.rows) : u.pk ≠ users.freshPk := by
  have hle : ∀ {rows : List User}, u ∈ rows → u.pk ≤ (rows.map User.pk).foldr max 0 := by
    intro rows hmem
    induction rows with
    | nil => cases hmem
    | cons v rows ih =>
        rcases List.mem_cons.mp hmem with rfl | hmem
        · exact le_max_left _ _
        · exact (ih hmem).trans (le_max_right _ _)
  exact (Nat.lt_succ_of_le (hle hu)).ne

/-! ## Statements -/

theorem ofRows_eq_some {rows : List User} (h : ofRows rows = some users) : users.rows = rows := by
  unfold ofRows at h
  split at h
  · cases h
    rfl
  · cases h

theorem ofRows_self {rows : List User} (hdistinct : rows.Pairwise (User.Distinct citext))
    (hchecked : ∀ u ∈ rows, u.Checked) : ofRows rows = some ⟨rows, hdistinct, hchecked⟩ :=
  dif_pos ⟨hdistinct, hchecked⟩

/-- The tables differ in the row of one account. -/
def OnlyRow (users users' : Users citext) (pk : Nat) : Prop :=
  ∀ v : User, v.pk ≠ pk → (v ∈ users'.rows ↔ v ∈ users.rows)

theorem OnlyRow.trans {users'' : Users citext} {pk : Nat} (h : users.OnlyRow users' pk)
    (h' : users'.OnlyRow users'' pk) : users.OnlyRow users'' pk :=
  fun v hv => (h' v hv).trans (h v hv)

theorem update_onlyRow (h : users.update u = some users') : users.OnlyRow users' u.pk := by
  intro v hv
  rw [ofRows_eq_some h, List.mem_map]
  constructor
  · rintro ⟨w, hw, hwv⟩
    split at hwv
    · exact absurd (congrArg User.pk hwv).symm hv
    · exact hwv ▸ hw
  · exact fun hmem => ⟨v, hmem, if_neg hv⟩

theorem mem_update (h : users.update u = some users') (hu : ∃ w ∈ users.rows, w.pk = u.pk) : u ∈ users'.rows := by
  obtain ⟨w, hw, hpk⟩ := hu
  rw [ofRows_eq_some h, List.mem_map]
  exact ⟨w, hw, if_pos hpk⟩

theorem insert_onlyRow (h : users.insert u = some users') : users.OnlyRow users' u.pk := by
  intro v hv
  rw [ofRows_eq_some h, List.mem_append, List.mem_singleton]
  exact or_iff_left fun heq => hv (congrArg User.pk heq)

theorem mem_insert (h : users.insert u = some users') : u ∈ users'.rows := by
  rw [ofRows_eq_some h]
  exact List.mem_append_right _ (List.mem_singleton_self u)

/-- The update that the constraints allow. -/
theorem exists_update (hchecked : u.Checked) (hdistinct : ∀ v ∈ users.rows, v.pk ≠ u.pk → v.Distinct citext u) :
    ∃ users', users.update u = some users' := by
  refine ⟨_, ofRows_self ?_ ?_⟩
  · refine List.pairwise_map.mpr (users.distinct.imp_of_mem fun {a b} ha hb hab => ?_)
    split
    · rename_i hau
      split
      · rename_i hbu
        exact absurd (hau.trans hbu.symm) hab.pk
      · rename_i hbu
        exact (hdistinct b hb hbu).symm
    · rename_i hau
      split
      · exact hdistinct a ha hau
      · exact hab
  · intro v hv
    obtain ⟨w, hw, rfl⟩ := List.mem_map.mp hv
    split
    · exact hchecked
    · exact users.checked w hw

theorem exists_insert (hchecked : u.Checked) (hdistinct : ∀ v ∈ users.rows, v.Distinct citext u) :
    ∃ users', users.insert u = some users' := by
  refine ⟨_, ofRows_self ?_ ?_⟩
  · refine List.pairwise_append.mpr ⟨users.distinct, List.pairwise_singleton _ _, fun v hv w hw => ?_⟩
    exact List.mem_singleton.mp hw ▸ hdistinct v hv
  · intro v hv
    rcases List.mem_append.mp hv with hv | hv
    · exact users.checked v hv
    · exact List.mem_singleton.mp hv ▸ hchecked

/-- An update that changes nothing. -/
theorem update_self (hu : u ∈ users.rows) : users.update u = some users := by
  have hrows : (users.rows.map fun v => if v.pk = u.pk then u else v) = users.rows := by
    refine (List.map_congr_left fun v hv => ?_).trans (List.map_id _)
    split
    · rename_i hpk
      exact eq_of_pk hu hv hpk.symm
    · rfl
  rw [update, hrows]
  exact ofRows_self users.distinct users.checked

end Users

/-! ## What `create_or_update_user` does -/

variable {env : Environment} {data : OIDConnectUserData}
  {u user : User} {loginOnly created : Bool} {e : SsoException}

/-! ## The row that is saved -/

/-- A save only touches the certification. -/
theorem User.save_eq (old new : User) : ∃ isStaff profile,
    old.save new = { new with isStaff, jobseekerProfile := profile } ∧
      profile.map JobSeekerProfile.birthdate = new.jobseekerProfile.map JobSeekerProfile.birthdate := by
  simp only [User.save]
  split
  · refine ⟨_, _, rfl, ?_⟩
    rw [Option.map_map]
    rfl
  · exact ⟨_, _, rfl, rfl⟩

namespace OIDConnectUserData

theorem updated_pk : (data.updated env created u).pk = u.pk := by
  obtain ⟨isStaff, profile, hsave, -⟩ := User.save_eq u _
  rw [updated, hsave]
  cases created with
  | true => rfl
  | false => rfl

theorem updated_isActive : (data.updated env created u).isActive = u.isActive := by
  obtain ⟨isStaff, profile, hsave, -⟩ := User.save_eq u _
  rw [updated, hsave]
  cases created with
  | true => rfl
  | false => rfl

theorem updated_kind : (data.updated env created u).kind = u.kind := by
  obtain ⟨isStaff, profile, hsave, -⟩ := User.save_eq u _
  rw [updated, hsave]
  cases created with
  | true => rfl
  | false => rfl

theorem assignProfile_birthdate (h : .birthdate ∈ u.readonlyPiiFields) :
    data.assignProfile u = u.jobseekerProfile := by
  unfold assignProfile
  cases u.jobseekerProfile with
  | none => rfl
  | some profile =>
      cases data.birthdate with
      | none => rfl
      | some birthdate => simp [h]

/-- The update of an account keeps what is read only. -/
theorem updated_keepsReadonly : KeepsReadonly u (data.updated env false u) := by
  obtain ⟨isStaff, profile, hsave, hbirthdate⟩ := User.save_eq u _
  rw [updated, hsave]
  refine ⟨fun h => if_pos h, fun h => if_pos h, fun h => if_pos h, fun h => ?_⟩
  have hprofile : data.assignProfile u = u.jobseekerProfile := assignProfile_birthdate h
  rw [← hprofile]
  exact hbirthdate

/-! ## The account that is found -/

theorem bySub_eq_some (h : data.bySub users = some u) :
    u ∈ users.rows ∧ u.username = data.username ∧ u.identityProvider = data.identityProvider := by
  have hfound := List.find?_some h
  simp only [Bool.and_eq_true, decide_eq_true_eq] at hfound
  exact ⟨List.mem_of_find?_eq_some h, hfound⟩

theorem byEmail_eq_some (h : data.byEmail users = some u) : u ∈ users.rows ∧ u.hasEmail citext data.email = true :=
  ⟨List.mem_of_find?_eq_some h, by simpa using List.find?_some h⟩

theorem account_eq_ok (h : data.account users loginOnly = .ok (some u)) :
    u ∈ users.rows ∧ MayLogIn data users u.pk := by
  unfold account at h
  split at h
  · rename_i user hsub
    split at h
    · cases h
    · cases h
      obtain ⟨hmem, husername, hprovider⟩ := bySub_eq_some hsub
      exact ⟨hmem, Or.inl ⟨u, hmem, rfl, husername, hprovider⟩⟩
  · split at h
    · rename_i user hemail
      obtain ⟨hmem, hhas⟩ := byEmail_eq_some hemail
      split at h
      · rename_i hprovider
        split at h
        · rename_i hallowed
          cases h
          exact ⟨hmem, Or.inr (Or.inr ⟨u, hmem, rfl, hhas, Or.inr ⟨hprovider, hallowed⟩⟩)⟩
        · cases h
      · split at h
        · rename_i hmigration
          cases h
          exact ⟨hmem, Or.inr (Or.inr ⟨u, hmem, rfl, hhas, Or.inl hmigration⟩)⟩
        · split at h
          · cases h
          · cases h
    · split at h
      · cases h
      · cases h

/-- Two accounts are in conflict. -/
theorem account_multipleUsersFound {other : User} :
    data.account users loginOnly = .error (.multipleUsersFound u other) ↔
      data.bySub users = some u ∧ data.otherUser users u = some other := by
  unfold account
  cases data.bySub users with
  | some user =>
      dsimp only
      cases hother : data.otherUser users user with
      | some other' =>
          simp only [Except.error.injEq, SsoException.multipleUsersFound.injEq, Option.some.injEq]
          constructor
          · rintro ⟨rfl, rfl⟩
            exact ⟨rfl, hother⟩
          · rintro ⟨rfl, h⟩
            exact ⟨rfl, Option.some.inj (hother.symm.trans h)⟩
      | none =>
          simp only [reduceCtorEq, Option.some.injEq, false_iff, not_and]
          rintro rfl
          simp [hother]
  | none =>
      simp only [reduceCtorEq, false_and, iff_false]
      split
      · split
        · split
          · simp
          · simp
        · split
          · simp
          · split
            · simp
            · simp
      · split
        · simp
        · simp

/-! ## The checks -/

theorem checkAndSave_ok (h : data.checkAndSave env users created u = (users', .ok user)) :
    user = data.updated env created u ∧ u.isActive = true ∧ u.kind ∈ data.loginAllowedUserKinds ∧
      users.update user = some users' := by
  unfold checkAndSave at h
  split at h
  · cases h
  · rename_i hactive
    split at h
    · cases h
    · rename_i hkind
      split at h
      · cases h
      · split at h
        · cases h
        · rename_i hupdate
          cases h
          exact ⟨rfl, by simpa using hactive, Decidable.not_not.mp hkind, hupdate⟩

theorem checkAndSave_error (h : data.checkAndSave env users created u = (users', .error e)) :
    users' = users ∧ (e = .failure ∨ e = .inactiveUser u ∧ u.isActive = false ∨
      e = .invalidKind u ∧ u.kind ∉ data.loginAllowedUserKinds) := by
  unfold checkAndSave at h
  split at h
  · rename_i hactive
    cases h
    exact ⟨rfl, Or.inr (Or.inl ⟨rfl, by simpa using hactive⟩)⟩
  · split at h
    · rename_i hkind
      cases h
      exact ⟨rfl, Or.inr (Or.inr ⟨rfl, hkind⟩)⟩
    · split at h
      · cases h
        exact ⟨rfl, Or.inl rfl⟩
      · split at h
        · cases h
          exact ⟨rfl, Or.inl rfl⟩
        · cases h

end OIDConnectUserData

/-! ## The function -/

/-- The account of a user that may log in, in the table that holds it. -/
structure LoggedIn (data : OIDConnectUserData) (users users' : Users citext) (user : User) : Prop where
  mem : user ∈ users'.rows
  isActive : user.isActive = true
  kind : user.kind ∈ data.loginAllowedUserKinds
  mayLogIn : MayLogIn data users user.pk
  onlyRow : users.OnlyRow users' user.pk
  kept : ∀ u ∈ users.rows, u.pk = user.pk → u.isActive = true ∧ user.kind = u.kind ∧ KeepsReadonly u user

namespace OIDConnectUserData

theorem createOrUpdateUser_ok (h : data.createOrUpdateUser env users loginOnly = (users', .ok user)) :
    LoggedIn data users users' user := by
  unfold createOrUpdateUser at h
  split at h
  · cases h
  · rename_i found haccount
    obtain ⟨hmem, hmay⟩ := account_eq_ok haccount
    obtain ⟨rfl, hactive, hkind, hupdate⟩ := checkAndSave_ok h
    refine ⟨Users.mem_update hupdate ⟨found, hmem, updated_pk.symm⟩, updated_isActive.trans hactive,
      updated_kind.symm ▸ hkind, updated_pk.symm ▸ hmay, Users.update_onlyRow hupdate, fun u hu hpk => ?_⟩
    obtain rfl := Users.eq_of_pk hu hmem (hpk.trans updated_pk)
    exact ⟨hactive, updated_kind, updated_keepsReadonly⟩
  · split at h
    · cases h
    · split at h
      · cases h
      · rename_i inserted hinsert
        obtain ⟨rfl, hactive, hkind, hupdate⟩ := checkAndSave_ok h
        have hnew : ∀ u ∈ users.rows, u.pk ≠ (data.updated env true (data.newUser env users)).pk :=
          fun u hu hpk => Users.ne_freshPk hu (hpk.trans updated_pk)
        refine ⟨Users.mem_update hupdate ⟨_, Users.mem_insert hinsert, updated_pk.symm⟩, updated_isActive.trans hactive,
          updated_kind.symm ▸ hkind, Or.inr (Or.inl hnew), ?_, fun u hu hpk => absurd hpk (hnew u hu)⟩
        have hpk : (data.updated env true (data.newUser env users)).pk = (data.newUser env users).pk := updated_pk
        exact (hpk.symm ▸ Users.insert_onlyRow hinsert).trans (Users.update_onlyRow hupdate)

/-- An exception that a callback catches leaves the accounts as they are. -/
theorem createOrUpdateUser_error (hkind : data.kind ∈ data.loginAllowedUserKinds)
    (h : data.createOrUpdateUser env users loginOnly = (users', .error e)) (hne : e ≠ .failure) :
    users' = users ∧ (data.account users loginOnly = .error e ∨
      ∃ u, data.account users loginOnly = .ok (some u) ∧ (e = .inactiveUser u ∨ e = .invalidKind u)) := by
  unfold createOrUpdateUser at h
  split at h
  · rename_i haccount
    cases h
    exact ⟨rfl, Or.inl haccount⟩
  · rename_i found haccount
    obtain ⟨rfl, hcase⟩ := checkAndSave_error h
    refine ⟨rfl, Or.inr ⟨found, haccount, ?_⟩⟩
    exact hcase.elim (fun hfailure => absurd hfailure hne) fun hother => hother.imp And.left And.left
  · split at h
    · cases h
      exact absurd rfl hne
    · split at h
      · cases h
        exact absurd rfl hne
      · obtain ⟨-, hfailure | ⟨-, hactive⟩ | ⟨-, hinvalid⟩⟩ := checkAndSave_error h
        · exact absurd hfailure hne
        · cases hactive
        · exact absurd hkind hinvalid

end OIDConnectUserData

end Itou.OpenidConnect
