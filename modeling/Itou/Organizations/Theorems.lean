import Itou.Organizations.Lemmas.Joining
import Itou.Organizations.Lemmas.PrescriberSignup

/-!
# Members come and go by invitation

An organization keeps an administrator as long as no administrator accepts an invitation of the organization, and a
member who is deactivated stays out as long as the deactivation finds every invitation of this member. The signup of
prescribers creates an organization with its administrator, as long as its last step finds the answers of the others.
-/

namespace Itou.Organizations

open Itou.Lib

section

variable (lower : String → String) (localdate : Int → Int) (organization : Nat)

/-! ## An organization with members keeps an administrator -/

/-- An organization with an active member has an active administrator. -/
def HasAdmin (s : State) : Prop :=
  s.db.activeMemberships organization ≠ [] → s.db.activeAdminMemberships organization ≠ []

instance (s : State) : Decidable (HasAdmin organization s) :=
  inferInstanceAs (Decidable (_ ≠ [] → _ ≠ []))

/-- To accept an invitation takes the administrator right away from nobody. -/
def KeepsAdmins (s : State) (action : Action) : Prop :=
  ∀ s', s.step lower localdate organization action = some s' → action.joiner ≠ none →
    ∀ user, s.db.IsAdmin organization user → s'.db.IsAdmin organization user

/-- No active administrator opens an invitation of the organization that can be accepted. -/
def NotByAdmin (s : State) (action : Action) : Prop :=
  ∀ pk companyIsActive, action.joiner = some (pk, companyIsActive) → s.db.IsAdmin organization pk →
    ∀ i ∈ s.opened localdate organization action, (i.canBeAccepted s.now && companyIsActive) = false

instance (s : State) (action : Action) : Decidable (NotByAdmin localdate organization s action) :=
  decidable_of_iff (∀ joiner ∈ action.joiner, s.db.IsAdmin organization joiner.1 →
      ∀ i ∈ s.opened localdate organization action, (i.canBeAccepted s.now && joiner.2) = false)
    ⟨fun h pk companyIsActive hjoiner => h (pk, companyIsActive) hjoiner, fun h joiner => h joiner.1 joiner.2⟩

variable {lower localdate organization}

theorem keepsAdmins_iff_notByAdmin {s s' : State} {action : Action}
    (h : s.step lower localdate organization action = some s') :
    KeepsAdmins lower localdate organization s action ↔ NotByAdmin localdate organization s action := by
  constructor
  · intro hkeeps pk companyIsActive hjoiner hadmin
    obtain ⟨requester, hrequester, -, hfold⟩ := step_joiner hjoiner h
    obtain ⟨rfl, huser⟩ := requestUser_eq_some hrequester
    have hstill := hkeeps s' h (hjoiner ▸ Option.some_ne_none _) requester.pk hadmin
    by_contra hsome
    simp only [not_forall, Bool.not_eq_false, exists_prop] at hsome
    exact not_isAdmin_of_handleAll (fun i hi => (organization_of_mem_opened hi).2) hadmin.isMember huser hfold
      (Or.inr hsome) hstill
  · intro hnone t ht hjoin user hadmin
    rw [h, Option.some.injEq] at ht
    subst ht
    obtain ⟨⟨pk, companyIsActive⟩, hjoiner⟩ := Option.ne_none_iff_exists'.mp hjoin
    obtain ⟨requester, hrequester, -, hfold⟩ := step_joiner hjoiner h
    obtain ⟨rfl, -⟩ := requestUser_eq_some hrequester
    by_cases heq : user = requester.pk
    · subst heq
      rw [handleAll_of_none (hnone requester.pk companyIsActive hjoiner hadmin) hfold]
      exact hadmin
    · exact (handleAll_of_ne (fun i hi => (organization_of_mem_opened hi).2) heq hfold).2.mpr hadmin

variable (lower localdate organization)

/-- From an organization with an administrator, the organization has one as long as it has members, and nobody loses
the right by an invitation, exactly when no administrator accepts an invitation. -/
theorem keepsAdmin_iff (s : State) (actions : List Action)
    (hadmin : s.db.activeAdminMemberships organization ≠ []) :
    AllStates (State.step lower localdate organization) (HasAdmin organization) s actions ∧
      AllSteps (State.step lower localdate organization) (KeepsAdmins lower localdate organization) s actions ↔
    AllSteps (State.step lower localdate organization) (NotByAdmin localdate organization) s actions := by
  have hcongr : AllSteps (State.step lower localdate organization) (KeepsAdmins lower localdate organization) s actions ↔
      AllSteps (State.step lower localdate organization) (NotByAdmin localdate organization) s actions :=
    allSteps_congr (J := fun _ => True) (fun _ _ _ _ _ => trivial) (fun _ _ _ _ h => keepsAdmins_iff_notByAdmin h) trivial
  rw [hcongr, and_iff_right_iff_imp]
  intro hnone
  have hstates : AllStates (State.step lower localdate organization)
      (fun s => ∃ user, s.db.IsAdmin organization user) s actions := by
    refine allStates_of_allSteps (fun t a t' ht hguard h => ?_) (exists_isAdmin_iff.mpr hadmin) hnone
    cases hjoiner : a.joiner with
    | none => exact exists_isAdmin_of_step h hjoiner ht
    | some joiner =>
        obtain ⟨user, huser⟩ := ht
        exact ⟨user, (keepsAdmins_iff_notByAdmin h).mpr hguard t' h (hjoiner ▸ Option.some_ne_none joiner) user huser⟩
  exact hstates.mono (Q := HasAdmin organization) fun t ht _ => exists_isAdmin_iff.mp ht

/-! ## Who is deactivated stays out -/

/-- Once a user is deactivated, no invitation to the user or from the user that exists then can be accepted, and the
user is a member again only when a member has sent an invitation since. -/
def StaysOut (s : State) (actions : List Action) : Prop :=
  ∀ before requester user after s₁ s₂, actions = before ++ .deactivate requester user :: after →
    run (State.step lower localdate organization) s before = some s₁ →
    s₁.step lower localdate organization (.deactivate requester user) = some s₂ →
    AllStates (State.step lower localdate organization)
        (State.Barred lower organization (s₂.db.invitations.map (·.id)) user) s₂ after ∧
      ∀ later rest s₃, after = later ++ rest → run (State.step lower localdate organization) s₂ later = some s₃ →
        s₃.db.IsMember organization user →
          SomeStep (State.step lower localdate organization) (State.Invites lower organization user) s₂ later

/-- Each deactivation finds every invitation of the user that can still be accepted, and none of those that exist then
is sent again later with days left. -/
def FindsInvitations (s : State) (actions : List Action) : Prop :=
  ∀ before requester user after s₁ s₂, actions = before ++ .deactivate requester user :: after →
    run (State.step lower localdate organization) s before = some s₁ →
    s₁.step lower localdate organization (.deactivate requester user) = some s₂ →
    s₁.db.Reached lower localdate organization user s₁.now ∧
      AllSteps (State.step lower localdate organization)
        (State.NotRevived lower organization (s₂.db.invitations.map (·.id)) user) s₂ after

/-- A deactivated user stays out exactly when the deactivations find the invitations. -/
theorem staysOut_iff (s : State) (actions : List Action) :
    StaysOut lower localdate organization s actions ↔ FindsInvitations lower localdate organization s actions := by
  refine forall_congr' fun before => forall_congr' fun requester => forall_congr' fun user => forall_congr' fun after =>
    forall_congr' fun s₁ => forall_congr' fun s₂ => forall_congr' fun _ => forall_congr' fun _ => forall_congr' fun h => ?_
  have hfirst := barred_iff_reached h
  constructor
  · rintro ⟨hbarred, -⟩
    exact ⟨hfirst.mp hbarred.head, (barred_iff_notRevived (known_map s₂) hbarred.head).mp hbarred⟩
  · rintro ⟨hreached, hrevived⟩
    have hs₂ := hfirst.mpr hreached
    have hbarred := (barred_iff_notRevived (known_map s₂) hs₂).mpr hrevived
    refine ⟨hbarred, fun later rest s₃ hafter hrun hmember => ?_⟩
    have hout : s₂.Out lower organization (s₂.db.invitations.map (·.id)) user :=
      ⟨(step_deactivate h).2.2.1, fun i hi _ _ => List.mem_map_of_mem hi⟩
    exact someStep_invites (hafter ▸ hbarred).of_append hout hrun hmember

end

/-! ### The last day of an invitation -/

/-- The local date in winter, when the clock is one hour ahead. -/
def winterDate (t : Int) : Int := (t + 3600000000) / day

/-- The 5th of January 2026 at six in the evening, in Paris. -/
def evening : Int := 20458 * day + 61200000000

/-- One administrator, and a professional who is not a member. -/
def founded : State where
  db := { users := [⟨1, some "admin@asso.fr", .professional, true⟩, ⟨2, some "marc@asso.fr", .professional, true⟩]
          memberships := ⟨[⟨1, 1, 1, 0, true, true, 0, 0, none⟩], by decide, by decide⟩
          invitations := [] }
  now := evening

/-- The professional is invited twice, and joins with the second invitation in the morning of the last day of the
first. -/
def joining : List Action :=
  [.send 1 [(10, "marc@asso.fr")], .wait 86400000000, .send 1 [(11, "marc@asso.fr")], .wait 1090800000000, .join 2 11 true]

theorem keepsAdmin_joining : AllStates (State.step id winterDate 1) (HasAdmin 1) founded joining ∧
    AllSteps (State.step id winterDate 1) (KeepsAdmins id winterDate 1) founded joining :=
  (keepsAdmin_iff id winterDate 1 founded joining (by decide)).mpr (by decide)

/-- The new member becomes the only administrator, and then opens the first invitation. -/
def administratorJoins : List Action :=
  joining ++ [.setAdmin 1 2 true, .setAdmin 2 1 false, .join 2 10 true]

theorem not_keepsAdmin : ¬ (AllStates (State.step id winterDate 1) (HasAdmin 1) founded administratorJoins ∧
    AllSteps (State.step id winterDate 1) (KeepsAdmins id winterDate 1) founded administratorJoins) := by
  rintro ⟨h, -⟩
  exact absurd h (by decide)

/-- The new member is deactivated instead, and then opens the first invitation. -/
def memberJoins : List Action := joining ++ [.deactivate 1 2, .wait 3600000000, .join 2 10 true]

theorem not_staysOut : ¬ StaysOut id winterDate 1 founded memberJoins := by
  intro h
  have hback := (h joining 1 2 [.wait 3600000000, .join 2 10 true] _ _ rfl rfl rfl).2
    [.wait 3600000000, .join 2 10 true] [] _ rfl rfl (by decide)
  exact hback.elim id fun hback => hback.elim id id

/-! ## The signup of prescribers -/

/-- One organization is created, with an active administrator. Its number is that of the last establishment that was
chosen, and its kind and its status were answered since. -/
def CreatesOrganization (requests : List SignupRequest) (user : User) (db db' : SignupDb) : Prop :=
  ∃ o m siret, db'.organizations = db.organizations ++ [o] ∧ (∀ other ∈ db.organizations, other.pk ≠ o.pk) ∧
    db.members.Writes o.pk user.pk db'.members m ∧ m.isActive ∧ m.isAdmin ∧ o.siret = some siret ∧
    AnsweredSince requests siret [(o.kind, o.authorizationStatus)] ∧ Offered o.kind o.authorizationStatus

/-- The last step does not raise. It creates an organization, or answers by a redirect or a refusal and creates
nothing. -/
def JoinsWell (localdate : Int → Int) (now : Int) (db : SignupDb) (user : User) (requests : List SignupRequest) : Prop :=
  ∃ answer db' session, prescriberJoinOrg localdate now db user (sessionAfter requests) = .ok (answer, db', session) ∧
    (db' = db ∨ CreatesOrganization requests user db db')

/-- The session has a kind, and an organization too when the kind and the status are let through. -/
def FindsAnswers (user : User) (session : Option SignupSession) : Prop :=
  ∀ s ∈ session, user.isProfessional = true →
    ∃ kind, s.kind = some kind ∧ (isOneKind kind s.authorizationStatus = true → s.prescriberOrgData.isSome)

theorem joinsWell_iff_findsAnswers (localdate : Int → Int) (now : Int) (db : SignupDb) (user : User)
    (requests : List SignupRequest) :
    JoinsWell localdate now db user requests ↔ FindsAnswers user (sessionAfter requests) := by
  unfold JoinsWell
  cases hsession : sessionAfter requests with
  | none => exact iff_of_true ⟨_, _, _, rfl, Or.inl rfl⟩ fun _ hs => by cases hs
  | some s =>
      have hsound := sound_sessionAfter requests s hsession
      simp only [FindsAnswers, Option.mem_some_iff, forall_eq', prescriberJoinOrg]
      cases huser : user.isProfessional with
      | false => exact iff_of_true ⟨_, _, _, rfl, Or.inl rfl⟩ fun h => by cases h
      | true =>
          simp only [Bool.not_true, Bool.false_eq_true, if_false, true_imp_iff]
          cases hkind : s.kind with
          | none =>
              refine iff_of_false ?_ ?_
              · rintro ⟨_, _, _, h, -⟩
                cases h
              · rintro ⟨_, h, -⟩
                cases h
          | some kind =>
              simp only [Option.some.injEq, exists_eq_left']
              cases hone : isOneKind kind s.authorizationStatus with
              | false => exact iff_of_true ⟨_, _, _, rfl, Or.inl rfl⟩ fun h => by cases h
              | true =>
                  simp only [Bool.not_true, Bool.false_eq_true, if_false, true_imp_iff]
                  cases hdata : s.prescriberOrgData with
                  | none =>
                      refine iff_of_false ?_ fun h => by cases h
                      rintro ⟨_, _, _, h, -⟩
                      cases h
                  | some data =>
                      refine iff_of_true ?_ rfl
                      cases hcreate : db.createAndJoin localdate now user data kind s.authorizationStatus with
                      | none =>
                          simp only [hcreate]
                          exact ⟨_, _, _, rfl, Or.inl rfl⟩
                      | some db' =>
                          simp only [hcreate]
                          obtain ⟨o, m, horganizations, hnew, hwrites, hactive, hadmin, hsiret, rfl, hstatus⟩ :=
                            createAndJoin_eq_some hcreate
                          -- The pair is the one of the session, which was answered since the data were fetched.
                          have hanswers : s.answers = [(o.kind, o.authorizationStatus)] := by
                            rw [SignupSession.answers, hkind, hstatus]
                            rfl
                          refine ⟨_, _, _, rfl, Or.inr ⟨o, m, data.siret, horganizations, hnew, hwrites, hactive, hadmin,
                            hsiret, hanswers ▸ hsound.data data hdata, ?_⟩⟩
                          exact hsound.answers (o.kind, o.authorizationStatus) (hanswers ▸ List.mem_cons_self)

/-- **Signup of prescribers.** Each request to join of a sequence of requests does what it should exactly when each
finds the answers of the other steps. -/
theorem joinsWell_iff (requests : List SignupRequest) :
    (∀ before localdate now db user after, requests = before ++ .joinOrg localdate now db user :: after →
      JoinsWell localdate now db user before) ↔
    ∀ before localdate now db user after, requests = before ++ .joinOrg localdate now db user :: after →
      FindsAnswers user (sessionAfter before) := by
  constructor
  · intro h before localdate now db user after heq
    exact (joinsWell_iff_findsAnswers localdate now db user before).mp (h before localdate now db user after heq)
  · intro h before localdate now db user after heq
    exact (joinsWell_iff_findsAnswers localdate now db user before).mpr (h before localdate now db user after heq)

/-- No organization, and one professional. -/
def SignupDb.empty : SignupDb where
  organizations := []
  members := ⟨[⟨7, some "orienteur@asso.fr", .professional, true⟩], ∅, []⟩
  foreignKey := fun _ hm => nomatch hm

/-- The organization is said to be authorized, and the page that asks for a confirmation is skipped. -/
theorem raises_without_confirmation :
    ¬ JoinsWell id 0 SignupDb.empty ⟨7, some "orienteur@asso.fr", .professional, true⟩
      [.checkAlreadyExists, .chooseKind (some "authorized_org")] := by
  rintro ⟨answer, db', session, h, -⟩
  cases h

end Itou.Organizations
