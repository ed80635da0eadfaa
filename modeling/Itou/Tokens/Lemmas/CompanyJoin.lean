import Itou.Organizations.Lemmas.Members
import Itou.Tokens.CompanyJoin
import Itou.Tokens.Lemmas.Checks
import Std.Data.String.ToNat

/-!
# What the requests to join a company do

A token opens the signup of one company with one number of members, and no step breaks what the requests know of the
company. A request that waits is let go on.
-/

namespace Itou.Tokens

open Itou.Lib Itou.Organizations

variable {signing : Signing} {s s' : JoinState} {i : Nat} {r : JoinRequest}

/-! ## Links -/

/-- A link opens for one number of members. -/
theorem opens_unique {now now' : Instant} {members members' company : Nat} {token : String}
    (h : JoinState.opens signing now members company token = true)
    (h' : JoinState.opens signing now' members' company token = true) : members = members' := by
  obtain ⟨timestamp, value, htimestamp, hvalue, hmade, -⟩ := TokenGenerator.checkToken_eq_some_true (of_decide_eq_true h)
  obtain ⟨timestamp', value', htimestamp', hvalue', hmade', -⟩ :=
    TokenGenerator.checkToken_eq_some_true (of_decide_eq_true h')
  rw [htimestamp, Option.some.injEq] at htimestamp'
  subst htimestamp'
  have hhash := (String.append_right_inj _).mp (hmade.trans hmade'.symm)
  have heq : value = value' := (signing.hashString_injective hhash).2
  rw [heq, ← hvalue'] at hvalue
  have hmembers := (String.append_right_inj _).mp (companySignupHashValue_inj.mp hvalue)
  exact Nat.repr_injective hmembers

/-! ## The invariant -/

theorem Professional.isActiveUser {db : Db} {user : Nat} (h : Professional db user) : db.isActiveUser user = true := by
  obtain ⟨account, haccount, -⟩ := (Option.any_eq_true _ _).mp h
  have hfound := List.find?_some haccount
  exact List.any_eq_true.mpr ⟨account, List.mem_of_find?_eq_some haccount, hfound⟩

/-- Whether the request counted no active member, and the number of members who had joined then. -/
def JoinPhase.countOfMembers : JoinPhase → Option (Bool × Nat)
  | .counted _ isAdmin countedAt | .inserted _ isAdmin countedAt => some (isAdmin, countedAt)
  | .checked _ | .ended _ => none

/-- What holds of a request. -/
structure JoinState.Knows (signing : Signing) (s : JoinState) (r : JoinRequest) : Prop where
  professional : r.phase.since.isSome → Professional s.db r.user
  notProfessional : r.phase = .ended .notProfessional → ¬ Professional s.db r.user
  since : ∀ since ∈ r.phase.since, since ≤ s.joined.length ∧ (∀ e ∈ s.joined.take since, e.link ≠ r.link) ∧
    ∃ members now, opens signing now members r.company r.token = true ∧ members ≤ membersCount s.db r.company
  counted : ∀ c ∈ r.phase.countOfMembers, c.2 ≤ s.joined.length ∧
    (c.1 = false → s.db.activeMemberships r.company ≠ []) ∧
    (c.1 = true → ∀ m ∈ s.db.activeMemberships r.company, ∃ e ∈ s.joined.drop c.2, e.membership = m)

/-- What holds of the members who joined. -/
structure JoinState.Inv (signing : Signing) (s : JoinState) : Prop where
  requests : ∀ i r, s.requests.lookup i = some r → s.Knows signing r
  active : ∀ e ∈ s.joined, e.membership ∈ s.db.activeMemberships e.membership.organization
  used : ∀ e ∈ s.joined, ∃ members now, opens signing now members e.membership.organization e.token = true ∧
    members < membersCount s.db e.membership.organization
  first : s.joined.Pairwise fun e f => e.membership.organization = f.membership.organization → f.wasEmpty = false

theorem JoinState.inv_start (db : Db) (companies : List Company) (now : Instant) :
    (JoinState.start db companies now).Inv signing where
  requests := fun _ _ h => nomatch h
  active := fun _ h => nomatch h
  used := fun _ h => nomatch h
  first := List.Pairwise.nil

/-- The step of one request leaves the others alone. -/
theorem forall_lookup_insert {P : JoinRequest → Prop} {requests : Table JoinRequest} (hr : P r)
    (h : ∀ j r', requests.lookup j = some r' → P r') : ∀ j r', (requests.insert i r).lookup j = some r' → P r' := by
  intro j r' hj
  by_cases heq : j = i
  · subst heq
    rw [AList.lookup_insert, Option.some.injEq] at hj
    exact hj ▸ hr
  · rw [AList.lookup_insert_ne heq] at hj
    exact h j r' hj

/-- A step of one request that commits nothing. -/
def JoinState.move (s : JoinState) (i : Nat) (r : JoinRequest) (phase : JoinPhase) : JoinState :=
  { s with requests := s.requests.insert i { r with phase } }

theorem JoinState.Inv.move {phase : JoinPhase} (h : s.Inv signing) (hr : s.Knows signing { r with phase }) :
    (s.move i r phase).Inv signing where
  requests := forall_lookup_insert ⟨hr.professional, hr.notProfessional, hr.since, hr.counted⟩ fun j r' hj =>
    let hknows := h.requests j r' hj
    ⟨hknows.professional, hknows.notProfessional, hknows.since, hknows.counted⟩
  active := h.active
  used := h.used
  first := h.first

theorem knows_ended {answer : JoinAnswer} (hphase : r.phase = .ended answer)
    (h : answer = .notProfessional → ¬ Professional s.db r.user) : s.Knows signing r where
  professional := by
    rw [hphase]
    exact fun h => nomatch h
  notProfessional := by
    rw [hphase, JoinPhase.ended.injEq]
    exact h
  since := by
    rw [hphase]
    exact fun _ h => nomatch h
  counted := by
    rw [hphase]
    exact fun _ h => nomatch h

/-! ## A member joins -/

section Commit

variable {db : Db} {memberships : Memberships} {row : Membership} {company : Nat}

theorem membersCount_insert (h : db.memberships.insert row = some memberships) :
    JoinState.membersCount { db with memberships := memberships } company =
      JoinState.membersCount db company + if row.organization = company then 1 else 0 := by
  rw [JoinState.membersCount, KeyedTable.insert_eq_some.mp h, List.filter_append, List.length_append,
    ← JoinState.membersCount]
  by_cases hrow : row.organization = company
  · simp [hrow]
  · simp [hrow]

theorem membersCount_le (h : db.memberships.insert row = some memberships) :
    JoinState.membersCount db company ≤ JoinState.membersCount { db with memberships := memberships } company := by
  rw [membersCount_insert h]
  exact Nat.le_add_right _ _

/-- The active members are those there were, and the new one. -/
theorem mem_activeMemberships_insert (h : db.memberships.insert row = some memberships) (hactive : row.isActive = true)
    (huser : db.isActiveUser row.user = true) {m : Membership} :
    m ∈ Db.activeMemberships { db with memberships := memberships } company ↔
      m ∈ db.activeMemberships company ∨ (m = row ∧ row.organization = company) := by
  have hrows := KeyedTable.insert_eq_some.mp h
  have hsame : Db.isActiveUser { db with memberships := memberships } = db.isActiveUser := rfl
  rw [mem_activeMemberships, mem_activeMemberships, hrows, List.mem_append, List.mem_singleton, hsame]
  constructor
  · rintro ⟨hmem | rfl, horganization, hrest⟩
    · exact Or.inl ⟨hmem, horganization, hrest⟩
    · exact Or.inr ⟨rfl, horganization⟩
  · rintro (⟨hmem, horganization, hrest⟩ | ⟨rfl, horganization⟩)
    · exact ⟨Or.inl hmem, horganization, hrest⟩
    · exact ⟨Or.inr rfl, horganization, huser, hactive⟩

end Commit

/-- The state after a commit. -/
def JoinState.committed (s : JoinState) (i : Nat) (r : JoinRequest) (isAdmin : Bool) (memberships : Memberships) :
    JoinState :=
  { s with
    db := { s.db with memberships := memberships }
    requests := s.requests.insert i { r with phase := .ended .joined }
    joined := s.joined ++ [⟨r.token, s.newMembership r.user r.company isAdmin,
      (s.db.activeMemberships r.company).isEmpty⟩] }

section Committed

variable {isAdmin : Bool} {memberships : Memberships}

/-- What was known before a commit still is. -/
theorem JoinState.Knows.committed {r' : JoinRequest} (h : s.Knows signing r')
    (hinsert : s.db.memberships.insert (s.newMembership r.user r.company isAdmin) = some memberships)
    (huser : s.db.isActiveUser r.user = true) : (s.committed i r isAdmin memberships).Knows signing r' where
  professional := h.professional
  notProfessional := h.notProfessional
  since := by
    intro since hsince
    obtain ⟨hle, hlinks, members, now, hopens, hmembers⟩ := h.since since hsince
    refine ⟨?_, ?_, members, now, hopens, hmembers.trans (membersCount_le hinsert)⟩
    · rw [JoinState.committed, List.length_append]
      exact Nat.le_add_right_of_le hle
    · rw [JoinState.committed, List.take_append_of_le_length hle]
      exact hlinks
  counted := by
    intro c hc
    obtain ⟨hle, hfalse, htrue⟩ := h.counted c hc
    refine ⟨?_, ?_, ?_⟩
    · rw [JoinState.committed, List.length_append]
      exact Nat.le_add_right_of_le hle
    · intro hc
      obtain ⟨m, hm⟩ := List.exists_mem_of_ne_nil _ (hfalse hc)
      exact List.ne_nil_of_mem ((mem_activeMemberships_insert hinsert rfl huser).mpr (Or.inl hm))
    · intro hc m hm
      rw [JoinState.committed, List.drop_append_of_le_length hle]
      rcases (mem_activeMemberships_insert hinsert rfl huser).mp hm with hm | ⟨rfl, -⟩
      · obtain ⟨e, he, heq⟩ := htrue hc m hm
        exact ⟨e, List.mem_append_left _ he, heq⟩
      · exact ⟨_, List.mem_append_right _ List.mem_cons_self, rfl⟩

theorem JoinState.Inv.committed {since countedAt : Nat} (h : s.Inv signing) (hr : s.requests.lookup i = some r)
    (hphase : r.phase = .inserted since isAdmin countedAt)
    (hinsert : s.db.memberships.insert (s.newMembership r.user r.company isAdmin) = some memberships) :
    (s.committed i r isAdmin memberships).Inv signing := by
  have hknows := h.requests i r hr
  have huser : s.db.isActiveUser r.user = true := (hknows.professional (by rw [hphase]; rfl)).isActiveUser
  refine ⟨?_, ?_, ?_, ?_⟩
  · exact forall_lookup_insert (knows_ended rfl (nomatch ·)) fun j r' hj =>
      (h.requests j r' hj).committed hinsert huser
  · intro e he
    rcases List.mem_append.mp he with he | he
    · exact (mem_activeMemberships_insert hinsert rfl huser).mpr (Or.inl (h.active e he))
    · rw [List.mem_singleton.mp he]
      exact (mem_activeMemberships_insert hinsert rfl huser).mpr (Or.inr ⟨rfl, rfl⟩)
  · intro e he
    rcases List.mem_append.mp he with he | he
    · obtain ⟨members, now, hopens, hmembers⟩ := h.used e he
      exact ⟨members, now, hopens, hmembers.trans_le (membersCount_le hinsert)⟩
    · rw [List.mem_singleton.mp he]
      obtain ⟨-, -, members, now, hopens, hmembers⟩ := hknows.since since (by rw [hphase]; rfl)
      refine ⟨members, now, hopens, ?_⟩
      rw [JoinState.committed, membersCount_insert hinsert, if_pos rfl]
      exact Nat.lt_succ_of_le hmembers
  · refine List.pairwise_append.mpr ⟨h.first, List.pairwise_singleton _ _, fun e he f hf hsame => ?_⟩
    rw [List.mem_singleton.mp hf] at hsame ⊢
    exact List.isEmpty_eq_false_iff.mpr (List.ne_nil_of_mem (hsame ▸ h.active e he))

end Committed

/-! ## Steps -/

/-- A commit, for the request that it is about. -/
theorem commit_eq_some (h : s.commit i = some s') : ∃ r since isAdmin countedAt memberships,
    s.requests.lookup i = some r ∧ r.phase = .inserted since isAdmin countedAt ∧
      s.db.memberships.insert (s.newMembership r.user r.company isAdmin) = some memberships ∧
      s' = s.committed i r isAdmin memberships := by
  unfold JoinState.commit at h
  split at h
  · rename_i user company token since isAdmin countedAt hr
    obtain ⟨memberships, hinsert, rfl⟩ := Option.map_eq_some_iff.mp h
    exact ⟨_, since, isAdmin, countedAt, memberships, hr, rfl, hinsert, rfl⟩
  · cases h

theorem insert_eq_some (h : s.insert i = some s') : ∃ r since isAdmin countedAt,
    s.requests.lookup i = some r ∧ r.phase = .counted since isAdmin countedAt ∧
      s' = s.move i r
        (if (s.db.membership? r.company r.user).isSome then .ended .raised else .inserted since isAdmin countedAt) := by
  unfold JoinState.insert at h
  split at h
  · rename_i user company token since isAdmin countedAt hr
    split at h
    · cases h
    · cases h
      exact ⟨_, since, isAdmin, countedAt, hr, rfl, rfl⟩
  · cases h

theorem count_eq_some (h : s.count i = some s') : ∃ r since, s.requests.lookup i = some r ∧ r.phase = .checked since ∧
    s' = s.move i r (.counted since (s.db.activeMemberships r.company).isEmpty s.joined.length) := by
  unfold JoinState.count at h
  split at h
  · rename_i user company token since hr
    cases h
    exact ⟨_, since, hr, rfl, rfl⟩
  · cases h

theorem dispatch_eq_some {user company : Nat} {token : String} (h : s.dispatch signing i user company token = some s') :
    ∃ phase, s' = s.move i ⟨user, company, token, phase⟩ phase ∧
      ((phase = .ended .refused) ∨ (phase = .ended .notProfessional ∧ ¬ Professional s.db user) ∨
        (phase = .checked s.joined.length ∧ Professional s.db user ∧
          JoinState.opens signing s.now (JoinState.membersCount s.db company) company token = true)) := by
  unfold JoinState.dispatch at h
  split at h
  · cases h
  · obtain ⟨account, haccount, rfl⟩ := Option.map_eq_some_iff.mp h
    refine ⟨_, rfl, ?_⟩
    split
    · exact Or.inl rfl
    · rename_i hopens
      rw [Bool.or_eq_true, not_or, Bool.not_eq_true', Bool.not_eq_true', Bool.not_eq_false, Bool.not_eq_false] at hopens
      split
      · rename_i hprofessional
        refine Or.inr (Or.inl ⟨rfl, fun h => ?_⟩)
        rw [Professional, haccount, Option.any_some] at h
        rw [h] at hprofessional
        cases hprofessional
      · rename_i hprofessional
        refine Or.inr (Or.inr ⟨rfl, ?_, hopens.2⟩)
        rw [Professional, haccount, Option.any_some]
        rwa [Bool.not_eq_true', Bool.not_eq_false] at hprofessional

theorem JoinState.inv_step {a : JoinAction} (hinv : s.Inv signing) (h : s.step signing a = some s') : s'.Inv signing := by
  cases a with
  | dispatch i user company token =>
      obtain ⟨phase, rfl, hphase⟩ := dispatch_eq_some h
      rcases hphase with rfl | ⟨rfl, hprofessional⟩ | ⟨rfl, hprofessional, hopens⟩
      · exact hinv.move (knows_ended rfl (nomatch ·))
      · exact hinv.move (knows_ended rfl fun _ => hprofessional)
      · refine hinv.move ⟨fun _ => hprofessional, (nomatch ·), fun since hsince => ?_, fun _ h => nomatch h⟩
        cases hsince
        refine ⟨le_rfl, fun e he hlink => ?_, _, s.now, hopens, le_rfl⟩
        -- The link has been of use for a smaller number of members.
        rw [List.take_length] at he
        obtain ⟨members, now, hused, hmembers⟩ := hinv.used e he
        obtain ⟨hcompany, htoken⟩ := Prod.mk.inj hlink
        rw [hcompany, htoken] at hused
        rw [hcompany, opens_unique hused hopens] at hmembers
        exact lt_irrefl _ hmembers
  | count i =>
      obtain ⟨r, since, hr, hphase, rfl⟩ := count_eq_some h
      have hknows := hinv.requests i r hr
      refine hinv.move ⟨fun _ => hknows.professional (by rw [hphase]; rfl), (nomatch ·), ?_, ?_⟩
      · intro since' hsince
        cases hsince
        exact hknows.since since (by rw [hphase]; rfl)
      · intro c hc
        cases hc
        refine ⟨le_rfl, List.isEmpty_eq_false_iff.mp, fun hempty m hm => ?_⟩
        rw [List.isEmpty_iff.mp hempty] at hm
        cases hm
  | insert i =>
      obtain ⟨r, since, isAdmin, countedAt, hr, hphase, rfl⟩ := insert_eq_some h
      have hknows := hinv.requests i r hr
      split
      · exact hinv.move (knows_ended rfl (nomatch ·))
      · refine hinv.move ⟨fun _ => hknows.professional (by rw [hphase]; rfl), (nomatch ·), ?_, ?_⟩
        · intro since' hsince
          cases hsince
          exact hknows.since since (by rw [hphase]; rfl)
        · intro c hc
          cases hc
          exact hknows.counted (isAdmin, countedAt) (by rw [hphase]; rfl)
  | commit i =>
      obtain ⟨r, since, isAdmin, countedAt, memberships, hr, hphase, hinsert, rfl⟩ := commit_eq_some h
      exact hinv.committed hr hphase hinsert
  | wait now =>
      obtain ⟨-, h⟩ := Option.ite_none_right_eq_some.mp h
      cases h
      exact ⟨fun j r hj => ⟨(hinv.requests j r hj).professional, (hinv.requests j r hj).notProfessional,
        (hinv.requests j r hj).since, (hinv.requests j r hj).counted⟩, hinv.active, hinv.used, hinv.first⟩

/-! ## No request waits forever -/

/-- A key is inserted by one request, and is not committed. -/
structure JoinState.OneWriter (s : JoinState) : Prop where
  absent : ∀ i r, s.requests.lookup i = some r → ∀ key ∈ r.insertedKey, ∀ m ∈ s.db.memberships.rows,
    (m.user, m.organization) ≠ key
  unique : ∀ i r j r', s.requests.lookup i = some r → s.requests.lookup j = some r' → ∀ key ∈ r.insertedKey,
    key ∈ r'.insertedKey → i = j

theorem isWaiting_eq_false {user company : Nat} : s.isWaiting user company = false ↔
    ∀ i r, s.requests.lookup i = some r → r.insertedKey ≠ some (user, company) := by
  rw [JoinState.isWaiting, List.any_eq_false]
  simp only [Table.mem_rows, decide_eq_true_eq]
  exact ⟨fun h i r hr => h r ⟨i, hr⟩, fun h r ⟨i, hr⟩ => h i r hr⟩

theorem membership?_eq_none {db : Db} {user company : Nat} : db.membership? company user = none ↔
    ∀ m ∈ db.memberships.rows, (m.user, m.organization) ≠ (user, company) := by
  rw [Db.membership?, List.find?_eq_none]
  simp only [Bool.and_eq_true, decide_eq_true_eq, ne_eq, Prod.mk.injEq]

/-- A request that has inserted nothing that another one has. -/
theorem JoinState.OneWriter.move {phase : JoinPhase} (h : s.OneWriter)
    (hkey : ∀ key ∈ JoinRequest.insertedKey { r with phase }, (∀ m ∈ s.db.memberships.rows,
      (m.user, m.organization) ≠ key) ∧ ∀ j r', s.requests.lookup j = some r' → r'.insertedKey ≠ some key) :
    (s.move i r phase).OneWriter where
  absent := forall_lookup_insert (fun key hmem => (hkey key hmem).1) h.absent
  unique := by
    intro j r₁ k r₂ hj hk key h₁ h₂
    simp only [JoinState.move] at hj hk
    by_cases hji : j = i
    · by_cases hki : k = i
      · exact hji.trans hki.symm
      · rw [hji, AList.lookup_insert, Option.some.injEq] at hj
        rw [AList.lookup_insert_ne hki] at hk
        exact absurd h₂ ((hkey key (hj ▸ h₁)).2 k r₂ hk)
    · rw [AList.lookup_insert_ne hji] at hj
      by_cases hki : k = i
      · rw [hki, AList.lookup_insert, Option.some.injEq] at hk
        exact absurd h₁ ((hkey key (hk ▸ h₂)).2 j r₁ hj)
      · rw [AList.lookup_insert_ne hki] at hk
        exact h.unique j r₁ k r₂ hj hk key h₁ h₂

theorem JoinState.oneWriter_step {a : JoinAction} (hone : s.OneWriter) (h : s.step signing a = some s') : s'.OneWriter := by
  cases a with
  | dispatch i user company token =>
      obtain ⟨phase, rfl, hphase⟩ := dispatch_eq_some h
      rcases hphase with rfl | ⟨rfl, -⟩ | ⟨rfl, -⟩
      · exact hone.move fun _ h => nomatch h
      · exact hone.move fun _ h => nomatch h
      · exact hone.move fun _ h => nomatch h
  | count i =>
      obtain ⟨r, since, hr, hphase, rfl⟩ := count_eq_some h
      exact hone.move fun _ h => nomatch h
  | insert i =>
      obtain ⟨r, since, isAdmin, countedAt, hr, hphase, hs'⟩ := insert_eq_some h
      have hwaiting : s.isWaiting r.user r.company = false := by
        cases r with
        | mk user company token phase =>
            cases hphase
            simp only [JoinState.step, JoinState.insert, hr] at h
            exact Bool.eq_false_iff.mpr (Option.ite_none_left_eq_some.mp h).1
      subst hs'
      cases hmembership : s.db.membership? r.company r.user with
      | some m => exact hone.move fun _ h => nomatch h
      | none =>
          refine hone.move fun key hkey => ?_
          cases hkey
          exact ⟨membership?_eq_none.mp hmembership, isWaiting_eq_false.mp hwaiting⟩
  | commit i =>
      obtain ⟨r, since, isAdmin, countedAt, memberships, hr, hphase, hinsert, rfl⟩ := commit_eq_some h
      have hkey : r.insertedKey = some (r.user, r.company) := by
        rw [JoinRequest.insertedKey, hphase]
      have hmoved : (s.move i r (.ended .joined)).OneWriter := hone.move fun _ h => nomatch h
      refine ⟨fun j r' hj key hmem m hm => ?_, hmoved.unique⟩
      rw [JoinState.committed, KeyedTable.insert_eq_some.mp hinsert, List.mem_append, List.mem_singleton] at hm
      rcases hm with hm | rfl
      · exact hmoved.absent j r' hj key hmem m hm
      · rintro rfl
        -- The request that commits is the only one that has inserted the key, and has ended.
        by_cases hji : j = i
        · rw [hji, JoinState.committed, AList.lookup_insert, Option.some.injEq] at hj
          rw [← hj] at hmem
          cases hmem
        · rw [JoinState.committed, AList.lookup_insert_ne hji] at hj
          exact hji (hone.unique j r' i r hj hr _ hmem hkey)
  | wait now =>
      obtain ⟨-, h⟩ := Option.ite_none_right_eq_some.mp h
      cases h
      exact ⟨hone.absent, hone.unique⟩

/-- A request that has inserted a membership can commit it. -/
theorem commit_isSome {since countedAt : Nat} {isAdmin : Bool} (hone : s.OneWriter) (hr : s.requests.lookup i = some r)
    (hphase : r.phase = .inserted since isAdmin countedAt) : (s.commit i).isSome := by
  have habsent := hone.absent i r hr (r.user, r.company) (by rw [JoinRequest.insertedKey, hphase]; rfl)
  have hinsert : s.db.memberships.insert (s.newMembership r.user r.company isAdmin) ≠ none := by
    rw [ne_eq, KeyedTable.insert_eq_none rfl]
    rintro ⟨m, hm, hkey⟩
    exact habsent m hm hkey
  cases r with
  | mk user company token phase =>
      cases hphase
      simp only [JoinState.commit, hr, Option.isSome_map]
      exact Option.isSome_iff_ne_none.mpr hinsert

/-- When a request is under way, one of those that are can go on. -/
theorem exists_step (hone : s.OneWriter) (hr : s.requests.lookup i = some r) (hpending : r.phase.since.isSome) :
    ∃ a, a.goesOn = true ∧ (s.step signing a).isSome := by
  cases r with
  | mk user company token phase =>
      cases phase with
      | checked since =>
          refine ⟨.count i, rfl, ?_⟩
          simp only [JoinState.step, JoinState.count, hr, Option.isSome_some]
      | counted since isAdmin countedAt =>
          cases hwaiting : s.isWaiting user company with
          | false =>
              refine ⟨.insert i, rfl, ?_⟩
              simp only [JoinState.step, JoinState.insert, hr, hwaiting, Bool.false_eq_true, if_false, Option.isSome_some]
          | true =>
              -- The request that has inserted the membership commits it first.
              have hexists : ∃ j r', s.requests.lookup j = some r' ∧ r'.insertedKey = some (user, company) := by
                by_contra hnone
                push Not at hnone
                rw [isWaiting_eq_false.mpr hnone] at hwaiting
                cases hwaiting
              obtain ⟨j, r', hr', hkey⟩ := hexists
              refine ⟨.commit j, rfl, ?_⟩
              cases hphase : r'.phase with
              | inserted since' isAdmin' countedAt' => exact commit_isSome hone hr' hphase
              | _ =>
                  rw [JoinRequest.insertedKey, hphase] at hkey
                  cases hkey
      | inserted since isAdmin countedAt => exact ⟨.commit i, rfl, commit_isSome hone hr rfl⟩
      | ended answer => cases hpending

end Itou.Tokens
