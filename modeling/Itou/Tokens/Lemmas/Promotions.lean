import Itou.Lib.Runs
import Itou.Organizations.Lemmas.Members
import Itou.Tokens.Lemmas.Checks
import Itou.Tokens.Generators

/-!
# A link is of use once

What a step does to the rows of the members, and the invariant of the runs that spare the members promoted with a link
as long as the link is recent.
-/

namespace Itou.Tokens

open Itou.Lib Itou.Organizations

variable {signing : Signing} {localdate : Int → Int}

/-! ## Rows of members -/

/-- The company has a membership of the user, active or not, with this role. -/
def HasRow (db : Db) (company user : Nat) (isAdmin : Bool) : Prop :=
  ∃ m ∈ db.memberships.rows, m.organization = company ∧ m.user = user ∧ m.isAdmin = isAdmin

theorem HasRow.unique {db : Db} {company user : Nat} {p q : Bool} (hp : HasRow db company user p)
    (hq : HasRow db company user q) : p = q := by
  obtain ⟨m, hm, hmcompany, hmuser, rfl⟩ := hp
  obtain ⟨n, hn, hncompany, hnuser, rfl⟩ := hq
  have hkey : Membership.columns.key m = Membership.columns.key n := by
    simp only [Membership.columns, hmcompany, hmuser, hncompany, hnuser]
  rw [KeyedTable.eq_of_key hm hn hkey]

/-- A row that is written keeps its key, and the others stay. -/
theorem HasRow.of_writes {db db' : Db} {company user organization other : Nat} {m : Membership} {p : Bool}
    (h : HasRow db company user p) (hwrites : db.Writes organization other db' m) :
    HasRow db' company user p ∨ company = organization ∧ user = other ∧ HasRow db' company user m.isAdmin := by
  obtain ⟨n, hn, rfl, rfl, rfl⟩ := h
  by_cases hkey : n.user = other ∧ n.organization = organization
  · exact Or.inr ⟨hkey.2, hkey.1, m, hwrites.mem, hwrites.organization.trans hkey.2.symm,
      hwrites.user.trans hkey.1.symm, rfl⟩
  · exact Or.inl ⟨n, (hwrites.others n hkey).mpr hn, rfl, rfl, rfl⟩

/-! ## Steps -/

variable {s s' : State} {action : Action}

theorem editedMember_eq_some {company user : Nat} {membership : Membership} {account : Organizations.User}
    (h : s.editedMember company user = some (membership, account)) :
    membership ∈ s.db.memberships.rows ∧ membership.user = user ∧ membership.organization = company := by
  obtain ⟨m, hm, h⟩ := Option.bind_eq_some_iff.mp h
  obtain ⟨a, -, h⟩ := Option.map_eq_some_iff.mp h
  cases h
  exact membership?_eq_some hm

theorem confirmAdminRole_eq_some {requester company : Nat} {token : String} {db' : Db}
    (h : s.confirmAdminRole signing requester company token = some db') :
    s.checkAdminRequestToken signing company requester token = some true ∧
      ∃ m, s.db.Writes company requester db' m ∧ m.isAdmin = true := by
  simp only [State.confirmAdminRole] at h
  split at h
  · rename_i hguard
    obtain ⟨membership, hmembership, h⟩ := Option.bind_eq_some_iff.mp h
    obtain ⟨user, -, h⟩ := Option.bind_eq_some_iff.mp h
    have huser : membership.user = requester := by simpa using List.find?_some hmembership
    obtain ⟨m, hwrites, -, hadmin⟩ := setAdminRole_writes (List.mem_of_find?_eq_some hmembership) h
    exact ⟨hguard.2.1, m, huser ▸ hwrites, hadmin⟩
  · cases h

/-- A step writes one membership at most, and takes no role but from the member that it is about. -/
theorem step_writes (h : s.step signing localdate action = some s') :
    s'.db = s.db ∨ ∃ company user m, s.db.Writes company user s'.db m ∧
      (action.demoted ≠ some (company, user) → m.isAdmin = true) := by
  cases action with
  | requestAdminRole requester company =>
      obtain ⟨token, -, rfl⟩ := Option.map_eq_some_iff.mp h
      exact Or.inl rfl
  | confirmAdminRole requester company token =>
      simp only [State.step] at h
      split at h
      · obtain ⟨db', hdb', rfl⟩ := Option.map_eq_some_iff.mp h
        obtain ⟨-, m, hwrites, hadmin⟩ := confirmAdminRole_eq_some hdb'
        exact Or.inr ⟨company, requester, m, hwrites, fun _ => hadmin⟩
      · cases h
  | updateAdminRole requester user company admin =>
      obtain ⟨db', hdb', rfl⟩ := Option.map_eq_some_iff.mp h
      obtain ⟨⟨membership, account⟩, hmember, hsaved⟩ := Option.bind_eq_some_iff.mp hdb'
      obtain ⟨-, -, hactive, rfl, -⟩ := otherMember_eq_some hmember
      obtain ⟨m, hwrites, -, hadmin⟩ := setAdminRole_writes hactive hsaved
      refine Or.inr ⟨company, membership.user, m, hwrites, fun hkeeps => ?_⟩
      cases admin with
      | true => exact hadmin
      | false => exact absurd rfl hkeeps
  | deactivateMember requester user company =>
      obtain ⟨db', hdb', rfl⟩ := Option.map_eq_some_iff.mp h
      obtain ⟨⟨membership, account⟩, hmember, hsaved⟩ := Option.bind_eq_some_iff.mp hdb'
      obtain ⟨-, -, hactive, rfl, -⟩ := otherMember_eq_some hmember
      obtain ⟨m, hwrites, -, -⟩ := deactivateMembership_writes hactive hsaved
      exact Or.inr ⟨company, membership.user, m, hwrites, fun hkeeps => absurd rfl hkeeps⟩
  | adminSetAdminRole staff user company admin =>
      obtain ⟨⟨membership, account⟩, hmember, h⟩ := Option.bind_eq_some_iff.mp h
      obtain ⟨db', hdb', rfl⟩ := Option.map_eq_some_iff.mp h
      obtain ⟨hrow, rfl, rfl⟩ := editedMember_eq_some hmember
      obtain ⟨m, hwrites, -, hadmin⟩ := setAdminRole_writes_row hrow hdb'
      refine Or.inr ⟨membership.organization, membership.user, m, hwrites, fun hkeeps => ?_⟩
      cases admin with
      | true => exact hadmin
      | false => exact absurd rfl hkeeps
  | adminDeactivate staff user company =>
      obtain ⟨⟨membership, account⟩, hmember, h⟩ := Option.bind_eq_some_iff.mp h
      obtain ⟨db', hdb', rfl⟩ := Option.map_eq_some_iff.mp h
      obtain ⟨hrow, rfl, rfl⟩ := editedMember_eq_some hmember
      obtain ⟨m, hwrites, -, -⟩ := deactivateMembership_writes_row hrow hdb'
      exact Or.inr ⟨membership.organization, membership.user, m, hwrites, fun hkeeps => absurd rfl hkeeps⟩
  | join user company forceAdmin =>
      obtain ⟨account, haccount, h⟩ := Option.bind_eq_some_iff.mp h
      obtain ⟨db', hdb', rfl⟩ := Option.map_eq_some_iff.mp h
      have hpk : account.pk = user := by simpa using List.find?_some haccount
      subst hpk
      obtain ⟨m, hwrites, -, -⟩ := addOrActivateMembership_writes hdb'
      exact Or.inr ⟨company, account.pk, m, hwrites, fun hkeeps => absurd rfl hkeeps⟩
  | wait until' =>
      simp only [State.step] at h
      split at h
      · cases h
        exact Or.inl rfl
      · cases h

/-- A link is sent by a request, and is of use in a confirmation. -/
theorem step_records (h : s.step signing localdate action = some s') :
    s.now ≤ s'.now ∧
      (s'.links = s.links ∨ ∃ requester company token, s.requestAdminRole signing requester company = some token ∧
        s'.links = s.links ++ [token]) ∧
      (s'.promotions = s.promotions ∨ ∃ requester company token, token ∈ s.links ∧ s'.links = s.links ∧
        s.checkAdminRequestToken signing company requester token = some true ∧ HasRow s'.db company requester true ∧
        s'.promotions = ⟨token, company, requester⟩ :: s.promotions) := by
  cases action with
  | requestAdminRole requester company =>
      obtain ⟨token, htoken, rfl⟩ := Option.map_eq_some_iff.mp h
      exact ⟨Nat.le_refl _, Or.inr ⟨requester, company, token, htoken, rfl⟩, Or.inl rfl⟩
  | confirmAdminRole requester company token =>
      simp only [State.step] at h
      split at h
      · rename_i hlink
        obtain ⟨db', hdb', rfl⟩ := Option.map_eq_some_iff.mp h
        obtain ⟨hcheck, m, hwrites, hadmin⟩ := confirmAdminRole_eq_some hdb'
        exact ⟨Nat.le_refl _, Or.inl rfl, Or.inr ⟨requester, company, token, hlink, rfl, hcheck,
          ⟨m, hwrites.mem, hwrites.organization, hwrites.user, hadmin⟩, rfl⟩⟩
      · cases h
  | updateAdminRole requester user company admin =>
      obtain ⟨db', -, rfl⟩ := Option.map_eq_some_iff.mp h
      exact ⟨Nat.le_refl _, Or.inl rfl, Or.inl rfl⟩
  | deactivateMember requester user company =>
      obtain ⟨db', -, rfl⟩ := Option.map_eq_some_iff.mp h
      exact ⟨Nat.le_refl _, Or.inl rfl, Or.inl rfl⟩
  | adminSetAdminRole staff user company admin =>
      obtain ⟨⟨membership, account⟩, -, h⟩ := Option.bind_eq_some_iff.mp h
      obtain ⟨db', -, rfl⟩ := Option.map_eq_some_iff.mp h
      exact ⟨Nat.le_refl _, Or.inl rfl, Or.inl rfl⟩
  | adminDeactivate staff user company =>
      obtain ⟨⟨membership, account⟩, -, h⟩ := Option.bind_eq_some_iff.mp h
      obtain ⟨db', -, rfl⟩ := Option.map_eq_some_iff.mp h
      exact ⟨Nat.le_refl _, Or.inl rfl, Or.inl rfl⟩
  | join user company forceAdmin =>
      obtain ⟨account, -, h⟩ := Option.bind_eq_some_iff.mp h
      obtain ⟨db', -, rfl⟩ := Option.map_eq_some_iff.mp h
      exact ⟨Nat.le_refl _, Or.inl rfl, Or.inl rfl⟩
  | wait until' =>
      simp only [State.step] at h
      split at h
      · rename_i hle
        cases h
        exact ⟨hle, Or.inl rfl, Or.inl rfl⟩
      · cases h

/-! ## The invariant -/

/-- The token was made for a member of the company who was no administrator. -/
def MadeFor (signing : Signing) (token : String) (company user : Nat) : Prop :=
  ∃ timestamp, timestamp < 36 ^ 13 ∧ adminRequestTokenGenerator.makeTokenWithTimestamp signing timestamp
    (adminRequestValue company user false timestamp) = token

structure State.Inv (signing : Signing) (s : State) : Prop where
  links : ∀ token ∈ s.links, ∃ company user, MadeFor signing token company user
  made : ∀ p ∈ s.promotions, MadeFor signing p.token p.company p.user
  member : ∀ p ∈ s.promotions, ∃ isAdmin, HasRow s.db p.company p.user isAdmin
  spent : ∀ p ∈ s.promotions, HasRow s.db p.company p.user true ∨ s.Expired signing p.token
  once : (s.promotions.map Promotion.token).Nodup

theorem State.Expired.mono {token : String} (h : s.Expired signing token) (hle : s.now ≤ s'.now) :
    s'.Expired signing token := by
  intro timestamp htimestamp
  have hold := h timestamp htimestamp
  simp only [TokenGenerator.isExpired, decide_eq_true_eq] at hold ⊢
  exact Nat.lt_of_lt_of_le hold (Nat.div_le_div_right hle)

/-- The two members whom a token was made for are read as one. -/
theorem MadeFor.reads {token : String} {company user company' user' timestamp : Nat} {isAdmin : Bool}
    (h : MadeFor signing token company user) (htimestamp : TokenGenerator.timestamp signing token = some timestamp)
    (hmade : adminRequestTokenGenerator.makeTokenWithTimestamp signing timestamp
      (adminRequestValue company' user' isAdmin timestamp) = token) :
    toString company ++ toString user = toString company' ++ toString user' ∧ isAdmin = false := by
  obtain ⟨made, hlt, rfl⟩ := h
  rw [TokenGenerator.timestamp_makeTokenWithTimestamp hlt, Option.some.injEq] at htimestamp
  subst htimestamp
  have hvalue := ((TokenGenerator.makeTokenWithTimestamp_inj hlt hlt).mp hmade).2
  obtain ⟨hreads, hadmin⟩ := adminRequestValue_inj.mp hvalue
  exact ⟨hreads.symm, hadmin⟩

/-- What an accepted token says about the one who confirms it. -/
theorem checkAdminRequestToken_eq_some_true {company user : Nat} {token : String}
    (h : s.checkAdminRequestToken signing company user token = some true) :
    ∃ timestamp isAdmin, TokenGenerator.timestamp signing token = some timestamp ∧
      HasRow s.db company user isAdmin ∧
      adminRequestTokenGenerator.makeTokenWithTimestamp signing timestamp
        (adminRequestValue company user isAdmin timestamp) = token ∧
      ¬ s.Expired signing token := by
  obtain ⟨timestamp, value, htimestamp, hvalue, hmade, hrecent⟩ := TokenGenerator.checkToken_eq_some_true h
  obtain ⟨m, hm, rfl⟩ := Option.map_eq_some_iff.mp hvalue
  obtain ⟨hrow, hcompany, -, -⟩ := mem_activeMemberships.mp (List.mem_of_find?_eq_some hm)
  have huser : m.user = user := by simpa using List.find?_some hm
  refine ⟨timestamp, m.isAdmin, htimestamp, ⟨m, hrow, hcompany, huser, rfl⟩, hmade, fun hexpired => ?_⟩
  rw [hexpired timestamp htimestamp] at hrecent
  cases hrecent

/-- A link is for a member who is no administrator, since the company has none. -/
theorem requestAdminRole_madeFor {requester company : Nat} {token : String}
    (h : s.requestAdminRole signing requester company = some token) : MadeFor signing token company requester := by
  simp only [State.requestAdminRole] at h
  split at h
  · rename_i hguard
    obtain ⟨value, hvalue, rfl⟩ := Option.map_eq_some_iff.mp h
    obtain ⟨m, hm, rfl⟩ := Option.map_eq_some_iff.mp hvalue
    have hadmin : m.isAdmin = false := by
      by_contra hadmin
      have hmem := mem_activeAdminMemberships.mpr ⟨List.mem_of_find?_eq_some hm, Bool.not_eq_false _ ▸ hadmin⟩
      rw [hguard.2.2] at hmem
      cases hmem
    rw [hadmin]
    exact ⟨_, numSeconds_lt _, rfl⟩
  · cases h

/-- A token that was of use is not accepted again. -/
theorem not_mem_of_accepted (hinv : s.Inv signing) (hapart : Apart s.db) {company user : Nat} {token : String}
    (h : s.checkAdminRequestToken signing company user token = some true) :
    token ∉ s.promotions.map Promotion.token := by
  intro hused
  obtain ⟨p, hp, rfl⟩ := List.mem_map.mp hused
  obtain ⟨timestamp, isAdmin, htimestamp, hrow, hmade, hrecent⟩ := checkAdminRequestToken_eq_some_true h
  obtain ⟨hreads, rfl⟩ := (hinv.made p hp).reads htimestamp hmade
  obtain ⟨-, m, hm, hmcompany, hmuser, -⟩ := hinv.member p hp
  obtain ⟨n, hn, hncompany, hnuser, hnadmin⟩ := hrow
  obtain ⟨hcompany, huser⟩ := hapart m hm n hn (by rw [hmcompany, hmuser, hncompany, hnuser, hreads])
  rcases hinv.spent p hp with hadmin | hexpired
  · have hself : HasRow s.db p.company p.user false :=
      ⟨n, hn, hcompany.symm.trans hmcompany, huser.symm.trans hmuser, hnadmin⟩
    exact absurd (hadmin.unique hself) (by decide)
  · exact hrecent hexpired

theorem inv_step (hinv : s.Inv signing) (hspares : s.Spares signing action)
    (h : s.step signing localdate action = some s') : s'.Inv signing := by
  obtain ⟨hnow, hlinks, hpromotions⟩ := step_records h
  have hstill : ∀ p ∈ s.promotions, (∃ isAdmin, HasRow s'.db p.company p.user isAdmin) ∧
      (HasRow s'.db p.company p.user true ∨ s'.Expired signing p.token) := by
    intro p hp
    obtain ⟨isAdmin, hrow⟩ := hinv.member p hp
    rcases step_writes h with hdb | ⟨company, user, m, hwrites, hkeeps⟩
    · rw [hdb]
      exact ⟨⟨isAdmin, hrow⟩, (hinv.spent p hp).imp_right fun hexpired => hexpired.mono hnow⟩
    · constructor
      · rcases hrow.of_writes hwrites with hsame | ⟨-, -, hnew⟩
        · exact ⟨_, hsame⟩
        · exact ⟨_, hnew⟩
      · rcases hinv.spent p hp with hadmin | hexpired
        · rcases hadmin.of_writes hwrites with hsame | ⟨hcompany, huser, hnew⟩
          · exact Or.inl hsame
          · by_cases hdemoted : action.demoted = some (p.company, p.user)
            · exact Or.inr ((hspares.2 p hp hdemoted).mono hnow)
            · rw [hcompany, huser] at hdemoted
              exact Or.inl (hkeeps hdemoted ▸ hnew)
        · exact Or.inr (hexpired.mono hnow)
  have hmadeLinks : ∀ token ∈ s'.links, ∃ company user, MadeFor signing token company user := by
    rcases hlinks with hlinks | ⟨requester, company, token, htoken, hlinks⟩
    · rw [hlinks]
      exact hinv.links
    · rw [hlinks]
      intro t ht
      rcases List.mem_append.mp ht with ht | ht
      · exact hinv.links t ht
      · rw [List.mem_singleton.mp ht]
        exact ⟨company, requester, requestAdminRole_madeFor htoken⟩
  rcases hpromotions with hpromotions | ⟨requester, company, token, hlink, -, hcheck, hrow, hpromotions⟩
  · refine ⟨hmadeLinks, ?_, ?_, ?_, ?_⟩ <;> rw [hpromotions]
    · exact hinv.made
    · exact fun p hp => (hstill p hp).1
    · exact fun p hp => (hstill p hp).2
    · exact hinv.once
  · have hmade : MadeFor signing token company requester := by
      obtain ⟨made, user, hmade⟩ := hinv.links token hlink
      obtain ⟨timestamp, isAdmin, htimestamp, -, hself, -⟩ := checkAdminRequestToken_eq_some_true hcheck
      obtain ⟨-, rfl⟩ := hmade.reads htimestamp hself
      obtain ⟨timestamp', hlt, rfl⟩ := hmade
      rw [TokenGenerator.timestamp_makeTokenWithTimestamp hlt, Option.some.injEq] at htimestamp
      exact ⟨timestamp, htimestamp ▸ hlt, hself⟩
    refine ⟨hmadeLinks, ?_, ?_, ?_, ?_⟩ <;> rw [hpromotions]
    · exact List.forall_mem_cons.mpr ⟨hmade, hinv.made⟩
    · exact List.forall_mem_cons.mpr ⟨⟨_, hrow⟩, fun p hp => (hstill p hp).1⟩
    · exact List.forall_mem_cons.mpr ⟨Or.inl hrow, fun p hp => (hstill p hp).2⟩
    · exact List.nodup_cons.mpr ⟨not_mem_of_accepted hinv hspares.1 hcheck, hinv.once⟩

end Itou.Tokens
