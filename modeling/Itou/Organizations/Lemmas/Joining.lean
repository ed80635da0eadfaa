import Itou.Organizations.Lemmas.Invitations

/-!
# Who is a member after a step

An invitation that is accepted writes the membership of the guest alone. The membership is that of an administrator
when nobody is an active member before.
-/

namespace Itou.Organizations

open Itou.Lib

variable {lower : String → String} {localdate : Int → Int} {now : Int} {organization user other : Nat}

section Handle

variable {db db' : Db} {requester : User} {companyIsActive : Bool} {opened : List Invitation}

/-- Handling invitations does nothing to the others. -/
theorem handleAll_of_ne (hopened : ∀ i ∈ opened, i.organization = organization) (hne : other ≠ requester.pk)
    (h : opened.foldlM (fun db i => db.handleInvitation lower localdate now requester companyIsActive i) db = some db') :
    (db'.IsMember organization other ↔ db.IsMember organization other) ∧
      (db'.IsAdmin organization other ↔ db.IsAdmin organization other) := by
  induction opened generalizing db with
  | nil =>
      cases h
      exact ⟨Iff.rfl, Iff.rfl⟩
  | cons i opened ih =>
      rw [List.foldlM_cons] at h
      obtain ⟨next, hnext, hrest⟩ := Option.bind_eq_some_iff.mp h
      have hlater := ih (fun j hj => hopened j (List.mem_cons_of_mem i hj)) hrest
      rcases (handleInvitation_eq_some hnext).2 with ⟨-, rfl⟩ | ⟨-, -, m, hwrites, -, -⟩
      · exact hlater
      · rw [hopened i List.mem_cons_self] at hwrites
        exact ⟨hlater.1.trans (hwrites.isMember_of_ne hne), hlater.2.trans (hwrites.isAdmin_of_ne hne)⟩

/-- Nothing happens when none can be accepted. -/
theorem handleAll_of_none (hnone : ∀ i ∈ opened, (i.canBeAccepted now && companyIsActive) = false)
    (h : opened.foldlM (fun db i => db.handleInvitation lower localdate now requester companyIsActive i) db = some db') :
    db' = db := by
  induction opened generalizing db with
  | nil =>
      cases h
      rfl
  | cons i opened ih =>
      rw [List.foldlM_cons] at h
      obtain ⟨next, hnext, hrest⟩ := Option.bind_eq_some_iff.mp h
      have hlater := ih (fun j hj => hnone j (List.mem_cons_of_mem i hj)) hrest
      rcases (handleInvitation_eq_some hnext).2 with ⟨-, rfl⟩ | ⟨haccept, -⟩
      · exact hlater
      · rw [hnone i List.mem_cons_self] at haccept
        cases haccept

/-- The same when none is to the guest. -/
theorem handleAll_of_notAddressed
    (hnone : ∀ i ∈ opened, db.AddressedTo lower requester.pk i → (i.canBeAccepted now && companyIsActive) = false)
    (h : opened.foldlM (fun db i => db.handleInvitation lower localdate now requester companyIsActive i) db = some db') :
    db' = db := by
  induction opened generalizing db with
  | nil =>
      cases h
      rfl
  | cons i opened ih =>
      rw [List.foldlM_cons] at h
      obtain ⟨next, hnext, hrest⟩ := Option.bind_eq_some_iff.mp h
      obtain ⟨⟨user, huser, hpk⟩, hcases⟩ := handleInvitation_eq_some hnext
      rcases hcases with ⟨-, rfl⟩ | ⟨haccept, -⟩
      · exact ih (fun j hj => hnone j (List.mem_cons_of_mem i hj)) hrest
      · have hemail := List.find?_some (p := fun u : User => u.email.any fun e => lower e = lower i.email) huser
        simp only [Option.any_eq_true, decide_eq_true_eq] at hemail
        obtain ⟨e, he, hlower⟩ := hemail
        rw [hnone i List.mem_cons_self
          ⟨user, List.mem_of_find?_eq_some huser, hpk, e, he, hlower⟩] at haccept
        cases haccept

/-- A member who accepts an invitation is not an administrator afterwards. -/
theorem not_isAdmin_of_handleAll (hopened : ∀ i ∈ opened, i.organization = organization)
    (hmember : db.IsMember organization requester.pk) (huser : db.isActiveUser requester.pk)
    (h : opened.foldlM (fun db i => db.handleInvitation lower localdate now requester companyIsActive i) db = some db')
    (hsome : ¬ db.IsAdmin organization requester.pk ∨
      ∃ i ∈ opened, (i.canBeAccepted now && companyIsActive) = true) :
    ¬ db'.IsAdmin organization requester.pk := by
  induction opened generalizing db with
  | nil =>
      cases h
      rcases hsome with hnot | ⟨i, hi, -⟩
      · exact hnot
      · cases hi
  | cons i opened ih =>
      rw [List.foldlM_cons] at h
      obtain ⟨next, hnext, hrest⟩ := Option.bind_eq_some_iff.mp h
      have hopened' := fun j hj => hopened j (List.mem_cons_of_mem i hj)
      rcases (handleInvitation_eq_some hnext).2 with ⟨haccept, rfl⟩ | ⟨-, -, m, hwrites, hactive, hadmin⟩
      · refine ih hopened' hmember huser hrest ?_
        rcases hsome with hnot | ⟨j, hj, hj'⟩
        · exact Or.inl hnot
        · rcases List.mem_cons.mp hj with rfl | hj
          · rw [haccept] at hj'
            cases hj'
          · exact Or.inr ⟨j, hj, hj'⟩
      · rw [hopened i List.mem_cons_self] at hwrites hadmin
        -- The guest is an active member already, so that the organization has one.
        have hnonempty : (db.activeMemberships organization).isEmpty = false := by
          obtain ⟨n, hn, -⟩ := hmember
          exact List.isEmpty_eq_false_iff_exists_mem.mpr ⟨n, hn⟩
        refine ih hopened' (hwrites.isMember_self.mpr ⟨huser, hactive⟩) (hwrites.isActiveUser ▸ huser) hrest (Or.inl ?_)
        intro hstill
        have := (hwrites.isAdmin_self.mp hstill).2.2
        rw [hadmin, hnonempty] at this
        cases this

end Handle

/-! ## Steps -/

variable {s s' : State}

/-- A step of an administrator writes the membership of another member. -/
theorem step_otherMember {action : Action} (h : s.step lower localdate organization action = some s')
    (hjoiner : action.joiner = none) :
    (s'.db.memberships = s.db.memberships ∧ s'.db.users = s.db.users) ∨
      ∃ requester user m, s.db.IsAdmin organization requester ∧ s.db.IsMember organization user ∧ requester ≠ user ∧
        s.db.Writes organization user s'.db m := by
  cases action with
  | send requester forms =>
      obtain ⟨-, husers, hmemberships, -⟩ := step_send h
      exact Or.inl ⟨hmemberships, husers⟩
  | resend id =>
      cases h
      exact Or.inl ⟨rfl, rfl⟩
  | join | acceptAll => cases hjoiner
  | deactivate requester user =>
      obtain ⟨db', hdb, rfl⟩ := Option.map_eq_some_iff.mp h
      obtain ⟨⟨membership, account⟩, hother, hwritten⟩ := Option.bind_eq_some_iff.mp hdb
      obtain ⟨hadmin, hne, hmem, rfl, -⟩ := otherMember_eq_some hother
      obtain ⟨m, hwrites, -⟩ := deactivateMembership_writes hmem hwritten
      exact Or.inr ⟨requester, membership.user, m, isAdmin_of_isCurrentOrganizationAdmin hadmin,
        ⟨membership, hmem, rfl⟩, hne, hwrites⟩
  | setAdmin requester user admin =>
      obtain ⟨db', hdb, rfl⟩ := Option.map_eq_some_iff.mp h
      obtain ⟨⟨membership, account⟩, hother, hwritten⟩ := Option.bind_eq_some_iff.mp hdb
      obtain ⟨hadmin, hne, hmem, rfl, -⟩ := otherMember_eq_some hother
      obtain ⟨m, hwrites, -⟩ := setAdminRole_writes hmem hwritten
      exact Or.inr ⟨requester, membership.user, m, isAdmin_of_isCurrentOrganizationAdmin hadmin,
        ⟨membership, hmem, rfl⟩, hne, hwrites⟩
  | wait duration =>
      cases h
      exact Or.inl ⟨rfl, rfl⟩

/-- Nobody becomes a member but by an invitation. -/
theorem isMember_of_step {action : Action} (h : s.step lower localdate organization action = some s')
    (hjoiner : action.joiner = none) (hmember : s'.db.IsMember organization user) :
    s.db.IsMember organization user := by
  rcases step_otherMember h hjoiner with ⟨hmemberships, husers⟩ | ⟨requester, other, m, -, hother, -, hwrites⟩
  · unfold Db.IsMember Db.activeMemberships Db.isActiveUser at hmember ⊢
    rwa [hmemberships, husers] at hmember
  · by_cases heq : user = other
    · exact heq ▸ hother
    · exact (hwrites.isMember_of_ne heq).mp hmember

/-- The administrator who opens a view stays one. -/
theorem exists_isAdmin_of_step {action : Action} (h : s.step lower localdate organization action = some s')
    (hjoiner : action.joiner = none) (hadmin : ∃ user, s.db.IsAdmin organization user) :
    ∃ user, s'.db.IsAdmin organization user := by
  rcases step_otherMember h hjoiner with ⟨hmemberships, husers⟩ | ⟨requester, other, m, hrequester, -, hne, hwrites⟩
  · unfold Db.IsAdmin Db.activeAdminMemberships Db.activeMemberships Db.isActiveUser at hadmin ⊢
    rwa [hmemberships, husers]
  · exact ⟨requester, (hwrites.isAdmin_of_ne hne).mpr hrequester⟩

/-! ## Invitations that are barred -/

variable {ids : List Nat}

/-- The invitations of these ids exist. -/
def State.Known (ids : List Nat) (s : State) : Prop := ∀ id ∈ ids, ∃ i ∈ s.db.invitations, i.id = id

theorem known_map (s : State) : s.Known (s.db.invitations.map (·.id)) := fun _ hid => List.mem_map.mp hid

/-- A deactivation bars the invitations of the user when it finds those that can still be accepted. -/
theorem barred_iff_reached {requester : Nat}
    (h : s.step lower localdate organization (.deactivate requester user) = some s') :
    s'.Barred lower organization (s'.db.invitations.map (·.id)) user ↔
      s.db.Reached lower localdate organization user s.now := by
  obtain ⟨hnow, husers, -, account, haccount, f, hf, hages⟩ := step_deactivate h
  constructor
  · intro hbarred account' haccount' i hi horganization hconcerns haccept
    rw [haccount, Option.some.injEq] at haccount'
    subst haccount'
    by_contra hfound
    have hi' : f i ∈ s'.db.invitations := hf ▸ List.mem_map_of_mem hi
    apply hbarred (f i) hi' ((hages i).1.organization.trans horganization) (List.mem_map_of_mem hi')
    · exact ((hages i).1.concerns husers).mpr hconcerns
    · rw [hnow]
      exact ((hages i).2 horganization).mpr ⟨haccept, hfound⟩
  · intro hreached i' hi' horganization _ hconcerns haccept
    rw [hf] at hi'
    obtain ⟨i, hi, rfl⟩ := List.mem_map.mp hi'
    have hiorganization : i.organization = organization := (hages i).1.organization.symm.trans horganization
    rw [hnow] at haccept
    obtain ⟨hbefore, hfound⟩ := ((hages i).2 hiorganization).mp haccept
    exact hfound (hreached account haccount i hi hiorganization (((hages i).1.concerns husers).mp hconcerns) hbefore)

theorem barred_send {requester : Nat} {forms : List (Nat × String)} (hknown : s.Known ids)
    (hbarred : s.Barred lower organization ids user)
    (h : s.step lower localdate organization (.send requester forms) = some s') :
    s'.Known ids ∧ s'.Barred lower organization ids user := by
  obtain ⟨hnow, husers, -, -, hold, hnew⟩ := step_send h
  constructor
  · intro id hid
    obtain ⟨i, hi, rfl⟩ := hknown id hid
    exact ⟨i, hold i hi, rfl⟩
  · intro i hi horganization hid hconcerns
    rcases hnew i hi with hi | ⟨hfresh, -⟩
    · rw [hnow]
      have hages : i.Ages s.now i := .refl i
      exact hbarred i hi horganization hid ((hages.concerns husers).mp hconcerns)
    · obtain ⟨j, hj, hjid⟩ := hknown i.id hid
      exact absurd hjid (hfresh j hj)

theorem barred_quiet (hknown : s.Known ids) (hbarred : s.Barred lower organization ids user)
    (hquiet : s.db.Quiet s.now s'.db) (hle : s.now ≤ s'.now) :
    s'.Known ids ∧ s'.Barred lower organization ids user := by
  constructor
  · intro id hid
    obtain ⟨i, hi, rfl⟩ := hknown id hid
    obtain ⟨i', hi', hages⟩ := hquiet.exists_of_mem_left hi
    exact ⟨i', hi', hages.id⟩
  · intro i' hi' horganization hid hconcerns haccept
    obtain ⟨i, hi, hages⟩ := hquiet.exists_of_mem hi'
    exact hbarred i hi (hages.organization.symm.trans horganization) (hages.id ▸ hid)
      ((hages.concerns hquiet.1).mp hconcerns) (hages.canBeAccepted (Invitation.canBeAccepted_of_le haccept hle))

theorem barred_resend {id : Nat} (hknown : s.Known ids) (hbarred : s.Barred lower organization ids user)
    (h : s.step lower localdate organization (.resend id) = some s') :
    s'.Known ids ∧ (s'.Barred lower organization ids user ↔ s.NotRevived lower organization ids user (.resend id)) := by
  cases h
  refine ⟨fun id' hid' => ?_, fun hafter i hi haction horganization hid hconcerns => ?_,
    fun hrevived i' hi' horganization hid hconcerns haccept => ?_⟩
  · obtain ⟨i, hi, rfl⟩ := hknown id' hid'
    refine ⟨_, List.mem_map_of_mem hi, ?_⟩
    split <;> rfl
  · by_contra hdays
    rw [not_or, Bool.not_eq_true, Option.isSome_eq_false_iff, Option.isNone_iff_eq_none] at hdays
    cases haction
    have hmem : { i with sentAt := some s.now } ∈ (s.db.resendInvitation s.now i.id).invitations :=
      List.mem_map.mpr ⟨i, hi, if_pos rfl⟩
    refine hafter _ hmem horganization hid hconcerns
      (Invitation.canBeAccepted_iff.mpr ⟨s.now, rfl, hdays.2, ?_⟩)
    have hdays : 0 < (i.validityDays : Int) * day :=
      mul_pos (Int.natCast_pos.mpr (Nat.pos_of_ne_zero hdays.1)) (by decide)
    exact lt_add_of_pos_right s.now hdays
  · obtain ⟨i, hi, rfl⟩ := List.mem_map.mp hi'
    by_cases heq : i.id = id
    · simp only [heq, if_true] at horganization hid hconcerns haccept
      obtain ⟨sentAt, hsentAt, haccepted, hlt⟩ := Invitation.canBeAccepted_iff.mp haccept
      rcases hrevived i hi (heq ▸ rfl) horganization (heq ▸ hid) hconcerns with hdays | hsome
      · simp only [Option.some.injEq] at hsentAt
        simp [Invitation.expirationDate, hdays, ← hsentAt] at hlt
      · rw [haccepted] at hsome
        cases hsome
    · simp only [heq, if_false] at horganization hid hconcerns haccept
      exact hbarred i hi horganization hid hconcerns haccept

/-- What a step does to the invitations that are barred. -/
theorem barred_step {action : Action} (hknown : s.Known ids) (hbarred : s.Barred lower organization ids user)
    (h : s.step lower localdate organization action = some s') :
    s'.Known ids ∧ (s'.Barred lower organization ids user ↔ s.NotRevived lower organization ids user action) := by
  cases action with
  | send requester forms =>
      obtain ⟨hknown', hbarred'⟩ := barred_send hknown hbarred h
      exact ⟨hknown', iff_of_true hbarred' fun _ _ haction => by cases haction⟩
  | resend id => exact barred_resend hknown hbarred h
  | join | acceptAll | deactivate | setAdmin | wait =>
      obtain ⟨hquiet, hle⟩ := step_quiet (fun _ _ haction => by cases haction) (fun _ haction => by cases haction) h
      obtain ⟨hknown', hbarred'⟩ := barred_quiet hknown hbarred hquiet hle
      exact ⟨hknown', iff_of_true hbarred' fun _ _ haction => by cases haction⟩

theorem barred_iff_notRevived {actions : List Action} (hknown : s.Known ids)
    (hbarred : s.Barred lower organization ids user) :
    AllStates (State.step lower localdate organization) (State.Barred lower organization ids user) s actions ↔
      AllSteps (State.step lower localdate organization) (State.NotRevived lower organization ids user) s actions :=
  allStates_iff_allSteps (fun _ _ _ hs hP h => (barred_step hs hP h).1) (fun _ _ _ hs hP h => (barred_step hs hP h).2)
    hknown hbarred

/-! ## A user who is out -/

/-- The user is not a member, and has no invitation but those. -/
structure State.Out (lower : String → String) (organization : Nat) (ids : List Nat) (user : Nat) (s : State) : Prop where
  not_isMember : ¬ s.db.IsMember organization user
  addressed : ∀ i ∈ s.db.invitations, i.organization = organization → s.db.AddressedTo lower user i → i.id ∈ ids

/-- A step that invites the user is needed for the user to come back. -/
theorem out_step {action : Action} (hbarred : s.Barred lower organization ids user)
    (hout : s.Out lower organization ids user) (h : s.step lower localdate organization action = some s')
    (hinvites : ¬ s.Invites lower organization user action) : s'.Out lower organization ids user := by
  have hquiet : s.db.Quiet s.now s'.db → ∀ i' ∈ s'.db.invitations, i'.organization = organization →
      s'.db.AddressedTo lower user i' → i'.id ∈ ids := by
    intro hquiet i' hi' horganization haddressed
    obtain ⟨i, hi, hages⟩ := hquiet.exists_of_mem hi'
    rw [hages.id]
    refine hout.addressed i hi (hages.organization.symm.trans horganization) ?_
    unfold Db.AddressedTo at haddressed ⊢
    rwa [← hquiet.1, ← hages.email]
  have hjoin : ∀ pk companyIsActive, action.joiner = some (pk, companyIsActive) →
      ¬ s'.db.IsMember organization user := by
    intro pk companyIsActive hjoiner hmember
    obtain ⟨requester, hrequester, -, hfold⟩ := step_joiner hjoiner h
    obtain ⟨rfl, -⟩ := requestUser_eq_some hrequester
    by_cases heq : user = requester.pk
    · -- The invitations that the user opens are among those that are barred.
      subst heq
      rw [handleAll_of_notAddressed (fun i hi haddressed => ?_) hfold] at hmember
      · exact hout.not_isMember hmember
      · obtain ⟨hmem, horganization⟩ := organization_of_mem_opened hi
        have hnot := hbarred i hmem horganization (hout.addressed i hmem horganization haddressed) (Or.inl haddressed)
        rw [Bool.eq_false_of_not_eq_true hnot, Bool.false_and]
    · exact hout.not_isMember
        ((handleAll_of_ne (fun i hi => (organization_of_mem_opened hi).2) heq hfold).1.mp hmember)
  cases action with
  | send requester forms =>
      obtain ⟨-, husers, hmemberships, hrequester, -, hnew⟩ := step_send h
      refine ⟨fun hmember => hout.not_isMember (isMember_of_step h rfl hmember), fun i hi horganization haddressed => ?_⟩
      obtain ⟨u, hu, hpk, e, he, hlower⟩ := haddressed
      rw [husers] at hu
      rcases hnew i hi with hi | ⟨-, -, form, hform, hemail⟩
      · exact hout.addressed i hi horganization ⟨u, hu, hpk, e, he, hlower⟩
      · refine absurd ⟨?_, hrequester, form, hform, u, hu, hpk, e, he, hemail ▸ hlower⟩ hinvites
        rintro rfl
        exact hout.not_isMember hrequester
  | resend id =>
      refine ⟨fun hmember => hout.not_isMember (isMember_of_step h rfl hmember), ?_⟩
      cases h
      intro i' hi' horganization haddressed
      obtain ⟨i, hi, rfl⟩ := List.mem_map.mp hi'
      by_cases heq : i.id = id
      · simp only [heq, if_true] at horganization haddressed ⊢
        exact heq ▸ hout.addressed i hi horganization haddressed
      · simp only [heq, if_false] at horganization haddressed ⊢
        exact hout.addressed i hi horganization haddressed
  | join pk invitation companyIsActive =>
      obtain ⟨hq, -⟩ := step_quiet (fun _ _ ha => by cases ha) (fun _ ha => by cases ha) h
      exact ⟨hjoin pk companyIsActive rfl, hquiet hq⟩
  | acceptAll pk companyIsActive =>
      obtain ⟨hq, -⟩ := step_quiet (fun _ _ ha => by cases ha) (fun _ ha => by cases ha) h
      exact ⟨hjoin pk companyIsActive rfl, hquiet hq⟩
  | deactivate | setAdmin | wait =>
      obtain ⟨hq, -⟩ := step_quiet (fun _ _ ha => by cases ha) (fun _ ha => by cases ha) h
      exact ⟨fun hmember => hout.not_isMember (isMember_of_step h rfl hmember), hquiet hq⟩

/-- The user comes back in a run only when a step of the run has invited the user. -/
theorem someStep_invites {actions : List Action}
    (hbarred : AllStates (State.step lower localdate organization) (State.Barred lower organization ids user) s actions)
    (hout : s.Out lower organization ids user) (hrun : run (State.step lower localdate organization) s actions = some s')
    (hmember : s'.db.IsMember organization user) :
    SomeStep (State.step lower localdate organization) (State.Invites lower organization user) s actions := by
  induction actions generalizing s with
  | nil =>
      cases hrun
      exact absurd hmember hout.not_isMember
  | cons action actions ih =>
      obtain ⟨t, ht, hrun⟩ := Option.bind_eq_some_iff.mp hrun
      have hnow := hbarred.head
      have hlater := hbarred.2
      simp only [ht] at hlater
      simp only [SomeStep, ht]
      by_cases hinvites : s.Invites lower organization user action
      · exact Or.inl hinvites
      · exact Or.inr (ih hlater (out_step hnow hout ht hinvites) hrun)

end Itou.Organizations
