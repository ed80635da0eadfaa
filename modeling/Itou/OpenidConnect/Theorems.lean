import Itou.OpenidConnect.Lemmas.Callbacks
import Itou.OpenidConnect.Lemmas.States

/-!
# Safe logins

When the callbacks open a session and change accounts as they should.
-/

namespace Itou.OpenidConnect

variable {citext : String → String} {env : Environment}

namespace Login

/-- The answer of ProConnect. -/
theorem proConnect_isSafe_iff (state : ProConnectState) (info : UserInfo) (db : Db citext) :
    IsSafe (proConnectUserData info) db ((proConnect state info).respond env db) ↔
      (proConnect state info).Careful env db := by
  have hcareful : (proConnect state info).Careful env db ↔
      (isOtherEmail env state info = false → ∀ u ∈ (proConnectUserData info).bySub db.users,
        ((proConnectUserData info).otherUser db.users u).isSome = true → u.isActive = true) ∧
      (isOtherEmail env state info = true → NothingToWrite env info db.users (state.channel = some .nexus)) := Iff.rfl
  rw [hcareful]
  cases houtcome : (proConnectUserData info).createOrUpdateUser env db.users (state.channel = some .nexus) with
  | mk users' result =>
      cases hother : isOtherEmail env state info with
      | true =>
          simp only [Bool.true_eq_false, false_implies, true_and, forall_const]
          cases result with
          | ok user =>
              have hrefused : IsSafe (proConnectUserData info) db ⟨none, { db with users := users' }⟩ ↔
                  users' = db.users := isSafe_refused_iff
              rw [← createOrUpdateUser_ok_iff houtcome, ← hrefused]
              simp only [respond, callback, proConnectCallback, houtcome, hother, proConnectLogin]
              rfl
          | error e =>
              refine iff_of_true ?_ (nothingToWrite_of_error houtcome)
              have hsame : e ≠ .failure → users' = db.users := fun hne =>
                (OIDConnectUserData.createOrUpdateUser_error proConnect_kind houtcome hne).1
              simp only [respond, callback, proConnectCallback, houtcome, hother, proConnectLogin]
              cases e with
              | failure => exact IsSafe.unchanged _ db
              | multipleSubSameEmail _ => exact IsSafe.unchanged _ db
              | registerForbidden => exact isSafe_refused_iff.mpr (hsame fun h => by cases h)
              | emailInUse _ => exact isSafe_refused_iff.mpr (hsame fun h => by cases h)
              | multipleUsersFound _ _ => exact isSafe_refused_iff.mpr (hsame fun h => by cases h)
              | inactiveUser _ => exact isSafe_refused_iff.mpr (hsame fun h => by cases h)
              | invalidKind _ =>
                  cases (proConnectUserData info).byEmail users' with
                  | none => exact IsSafe.unchanged _ db
                  | some _ => exact isSafe_refused_iff.mpr (hsame fun h => by cases h)
      | false =>
          simp only [Bool.false_eq_true, false_implies, and_true, forall_const]
          -- a conflict is what `create_or_update_user` raises first
          have hconflict : ∀ u ∈ (proConnectUserData info).bySub db.users,
              ∀ other ∈ (proConnectUserData info).otherUser db.users u,
                (users', result) = (db.users, .error (.multipleUsersFound u other)) := fun u hu other hother =>
            houtcome.symm.trans (createOrUpdateUser_of_account_error
              (OIDConnectUserData.account_multipleUsersFound.mpr ⟨Option.mem_def.mp hu, Option.mem_def.mp hother⟩))
          have hvacuous : (∀ u other, result ≠ .error (.multipleUsersFound u other)) →
              ∀ u ∈ (proConnectUserData info).bySub db.users,
                ((proConnectUserData info).otherUser db.users u).isSome = true → u.isActive = true := by
            intro hne u hu hsome
            obtain ⟨other, hother⟩ := Option.isSome_iff_exists.mp hsome
            exact absurd (Prod.mk.inj (hconflict u hu other (Option.mem_def.mpr hother))).2 (hne u other)
          cases result with
          | ok user =>
              refine iff_of_true ?_ (hvacuous fun _ _ => by simp)
              have hlogged := OIDConnectUserData.createOrUpdateUser_ok houtcome
              have hmem : user ∈ ({ db with users := users' } : Db citext).users.rows := hlogged.mem
              obtain ⟨db', hlogin, hkeeps⟩ := proConnectLogin_eq env info hmem (List.mem_singleton.mp hlogged.kind)
              simp only [respond, callback, proConnectCallback, houtcome, hother, Bool.not_false, hlogin]
              exact IsSafe.of_loggedIn hlogged hkeeps
          | error e =>
              have hsame : e ≠ .failure → users' = db.users := fun hne =>
                (OIDConnectUserData.createOrUpdateUser_error proConnect_kind houtcome hne).1
              simp only [respond, callback, proConnectCallback, houtcome, hother, Bool.not_false]
              cases e with
              | failure => exact iff_of_true (IsSafe.unchanged _ db) (hvacuous fun _ _ => by simp)
              | multipleSubSameEmail _ => exact iff_of_true (IsSafe.unchanged _ db) (hvacuous fun _ _ => by simp)
              | registerForbidden =>
                  exact iff_of_true (isSafe_refused_iff.mpr (hsame fun h => by cases h)) (hvacuous fun _ _ => by simp)
              | emailInUse _ =>
                  exact iff_of_true (isSafe_refused_iff.mpr (hsame fun h => by cases h)) (hvacuous fun _ _ => by simp)
              | inactiveUser _ =>
                  exact iff_of_true (isSafe_refused_iff.mpr (hsame fun h => by cases h)) (hvacuous fun _ _ => by simp)
              | invalidKind _ =>
                  refine iff_of_true ?_ (hvacuous fun _ _ => by simp)
                  cases (proConnectUserData info).byEmail users' with
                  | none => exact IsSafe.unchanged _ db
                  | some _ => exact isSafe_refused_iff.mpr (hsame fun h => by cases h)
              | multipleUsersFound u other =>
                  obtain ⟨rfl, hcase⟩ := OIDConnectUserData.createOrUpdateUser_error proConnect_kind houtcome fun h => by cases h
                  have haccount : (proConnectUserData info).account db.users (state.channel = some .nexus) =
                      .error (.multipleUsersFound u other) := by
                    rcases hcase with haccount | ⟨v, -, hcase⟩
                    · exact haccount
                    · rcases hcase with hcase | hcase
                      · cases hcase
                      · cases hcase
                  obtain ⟨hsub, hother'⟩ := OIDConnectUserData.account_multipleUsersFound.mp haccount
                  obtain ⟨hmem, hkind, -⟩ := bySub_proConnect hsub
                  obtain ⟨db', hlogin, hkeeps⟩ := proConnectLogin_eq env info hmem hkind
                  simp only [hlogin, Option.getD_some]
                  refine (multipleUsersFound_isSafe_iff hsub hkeeps).trans ?_
                  constructor
                  · intro hactive v hv _
                    exact Option.some.inj (hsub.symm.trans (Option.mem_def.mp hv)) ▸ hactive
                  · intro h
                    exact h u (Option.mem_def.mpr hsub) (Option.isSome_of_eq_some hother')

/-- The answer to a login is safe exactly when the login is careful. -/
theorem isSafe_iff_careful (login : Login) (db : Db citext) :
    IsSafe login.data db (login.respond env db) ↔ login.Careful env db := by
  cases login with
  | proConnect state info => exact proConnect_isSafe_iff state info db
  | franceConnect nir info => exact iff_of_true (franceConnect_isSafe nir info db) trivial

/-- Texts in lower case, and no time. -/
def plainEnvironment : Environment := ⟨id, id, id, fun now => now / Organizations.day, 0⟩

/-- A professional that logged in with ProConnect. -/
def professional (pk : Nat) (username email : String) (isActive : Bool) : User where
  pk := pk
  username := username
  email := some email
  firstName := "Michel"
  lastName := "Audiard"
  title := ""
  kind := .professional
  identityProvider := .proConnect
  isActive := isActive
  isStaff := false
  allowNextSsoSubUpdate := false
  externalDataSourceHistory := []
  jobseekerProfile := none

/-- The account 1 is inactive, and invited in the company 10. The account 2 has the e-mail that the account 1 takes. -/
def conflict : Db id where
  users := ⟨[professional 1 "sub" "old@a.fr" false, professional 2 "other" "new@a.fr" true], by decide, by decide⟩
  organizations
    | .employer => ⟨∅, [⟨1, 10, 2, "old@a.fr", 14, 0, some 0, none⟩], by decide⟩
    | _ => ⟨∅, [], by decide⟩
  safirCodes := []
  activeCompanies := [10]

/-- The login of the account 1. -/
def conflictLogin : Login := .proConnect ⟨none, none⟩ ⟨"sub", "Michel", "Audiard", "new@a.fr", none, none, ""⟩

/-- ProConnect opens a session for the inactive account, and accepts its invitation. -/
theorem inactive_logs_in :
    (conflictLogin.respond plainEnvironment conflict).session = some 1 ∧
      ((conflictLogin.respond plainEnvironment conflict).db.organizations .employer).invitations.map
        Organizations.Invitation.acceptedAt = [some 0] ∧
      ¬ IsSafe conflictLogin.data conflict (conflictLogin.respond plainEnvironment conflict) := by
  refine ⟨by decide +kernel, by decide +kernel, fun hsafe => ?_⟩
  have hrow : professional 1 "sub" "old@a.fr" false ∈ conflict.users.rows := List.mem_cons_self
  exact (hsafe.inactive _ hrow rfl).1 (by decide +kernel)

end Login

/-! ## The states -/

namespace OIDConnectState

open Itou.Lib

instance : DecidablePred State.UsedOnce := fun s => inferInstanceAs (Decidable (s.obtained.length ≤ 1))

instance (createdAt : Int) : DecidablePred (State.UsedInTime createdAt) :=
  fun s => inferInstanceAs (Decidable (∀ t ∈ s.obtained, t < createdAt + oidcStateExpiration))

/-- No callback gets `True` from a state that is expired, and at most one gets it when the callbacks that read the unused
state are pending one at a time and do not fail after they got it. -/
theorem used_once_of_oneByOne (createdAt now : Int) (actions : List Action) :
    AllStates State.step (State.UsedInTime createdAt) (.start createdAt now) actions ∧
      (AllSteps State.step State.OneByOne (.start createdAt now) actions →
        AllStates State.step State.UsedOnce (.start createdAt now) actions) := by
  constructor
  · have hdated : AllStates State.step (State.Dated createdAt) (.start createdAt now) actions :=
      allStates_of_step (fun _ _ _ h hstep => dated_step h hstep) (dated_start createdAt now)
    exact hdated.mono fun _ h => h.inTime
  · intro hG
    have hexclusive : AllStates State.step State.Exclusive (.start createdAt now) actions :=
      allStates_of_allSteps (fun _ _ _ h hG hstep => exclusive_step h hG hstep) (exclusive_start createdAt now) hG
    exact hexclusive.mono fun _ h => h.once

instance (s : State) : (a : Action) → Decidable (s.OneByOne a)
  | .getFromState _ => inferInstanceAs (Decidable ((∃ r ∈ s.row, r.usedAt = none) → ∀ p ∈ s.callbacks.rows, _))
  | .rollback i => inferInstanceAs (Decidable (∀ p ∈ s.callbacks.lookup i, _))
  | .checkUsed _ | .save _ | .commit _ | .cleanup _ | .wait _ => .isTrue trivial

/-- A request that reads the row once it is used, while the clean-up runs. -/
theorem used_once_inTurn :
    AllStates State.step State.UsedOnce (.start 0 1)
      [.getFromState 0, .checkUsed 0, .cleanup 5, .save 0, .commit 0, .getFromState 1, .checkUsed 1] :=
  (used_once_of_oneByOne 0 1 _).2 (by decide)

/-- Two requests read the row before either has written it. -/
def atOnce : List Action :=
  [.getFromState 0, .getFromState 1, .checkUsed 0, .save 0, .checkUsed 1, .commit 0, .save 1, .commit 1]

/-- The first request fails after `is_valid`. -/
def failsThenAgain : List Action :=
  [.getFromState 0, .checkUsed 0, .save 0, .rollback 0, .getFromState 1, .checkUsed 1, .save 1, .commit 1]

/-- Both get `True`. -/
theorem used_twice :
    ¬ AllStates State.step State.UsedOnce (.start 0 1) atOnce ∧
      ¬ AllStates State.step State.UsedOnce (.start 0 1) failsThenAgain := by
  decide

end OIDConnectState

end Itou.OpenidConnect
