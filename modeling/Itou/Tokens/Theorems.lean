import Itou.Tokens.Lemmas.CompanyJoin
import Itou.Tokens.Lemmas.Promotions
import Itou.Tokens.Lemmas.Checks

/-!
# A signed link opens what it was issued for, and once

A token is accepted for another company when the numbers that were signed are read as the same text, and a link that
gave the administrator role is accepted again when the role is taken away while the link is recent. The requests that
join a company with a signup link do so one by one, or meet.
-/

namespace Itou.Tokens

open Itou.Lib Itou.Organizations

variable (signing : Signing) (localdate : Int → Int)

/-- The token is no older than the timeout of its generator. -/
def Recent (generator : TokenGenerator) (madeAt now : Instant) : Prop :=
  numSeconds now ≤ numSeconds madeAt + generator.timeout

/-- A signup token opens the company that it was made for, while this has the same number of members, and not later than
the timeout. -/
def SignupOpensOnly (company members : Nat) (madeAt : Instant) (company' members' : Nat) (now : Instant) : Prop :=
  ∀ token, companySignupTokenGenerator.makeToken signing madeAt (companySignupHashValue company members) = some token →
    companySignupTokenGenerator.checkToken signing now (companySignupHashValue company' members') token = some true →
      company' = company ∧ members' = members ∧ Recent companySignupTokenGenerator madeAt now

/-- The role of an active member. -/
def role (db : Db) (company user : Nat) : Option Bool :=
  ((db.activeMemberships company).find? (·.user = user)).map (·.isAdmin)

/-- A token of the administrator role opens what it was made for. -/
def AdminRequestOpensOnly (db : Db) (company user : Nat) (madeAt : Instant) (db' : Db) (company' user' : Nat)
    (now : Instant) : Prop :=
  ∀ token, adminRequestTokenGenerator.makeToken signing madeAt (adminRequestHashValue db company user) = some token →
    adminRequestTokenGenerator.checkToken signing now (adminRequestHashValue db' company' user') token = some true →
      company' = company ∧ user' = user

/-- Each token leads to one promotion at most. -/
def OncePerToken (s : State) : Prop := (s.promotions.map Promotion.token).Nodup

instance (s : State) : Decidable (OncePerToken s) := inferInstanceAs (Decidable (List.Nodup _))

variable {signing localdate}

theorem adminRequestHashValue_eq (db : Db) (company user timestamp : Nat) : adminRequestHashValue db company user timestamp =
    (role db company user).map fun isAdmin => adminRequestValue company user isAdmin timestamp := by
  simp [adminRequestHashValue, role, Function.comp_def]

theorem isExpired_eq_false {generator : TokenGenerator} {madeAt now : Instant} :
    generator.isExpired now (numSeconds madeAt) = false ↔ Recent generator madeAt now := by
  simp [TokenGenerator.isExpired, Recent]

theorem signupOpensOnly_iff {company members company' members' : Nat} {madeAt now : Instant} :
    SignupOpensOnly signing company members madeAt company' members' now ↔
      (Recent companySignupTokenGenerator madeAt now →
        toString company ++ toString members = toString company' ++ toString members' →
          company' = company ∧ members' = members) := by
  have hcheck : companySignupTokenGenerator.checkToken signing now (companySignupHashValue company' members')
      (companySignupTokenGenerator.makeTokenWithTimestamp signing (numSeconds madeAt)
        (toString company ++ toString members ++ toString (numSeconds madeAt))) = some true ↔
      toString company ++ toString members = toString company' ++ toString members' ∧
        Recent companySignupTokenGenerator madeAt now := by
    rw [TokenGenerator.checkToken_makeTokenWithTimestamp (numSeconds_lt madeAt), companySignupHashValue, Option.map_some,
      Option.some.injEq, Bool.and_eq_true, decide_eq_true_eq, String.append_left_inj, Bool.not_eq_true',
      isExpired_eq_false, eq_comm]
  constructor
  · intro h hrecent hreads
    obtain ⟨hcompany, hmembers, -⟩ := h _ rfl (hcheck.mpr ⟨hreads, hrecent⟩)
    exact ⟨hcompany, hmembers⟩
  · intro h token htoken haccepted
    cases htoken
    obtain ⟨hreads, hrecent⟩ := hcheck.mp haccepted
    obtain ⟨hcompany, hmembers⟩ := h hrecent hreads
    exact ⟨hcompany, hmembers, hrecent⟩

theorem adminRequestOpensOnly_iff {db db' : Db} {company user company' user' : Nat} {madeAt now : Instant} :
    AdminRequestOpensOnly signing db company user madeAt db' company' user' now ↔
      (Recent adminRequestTokenGenerator madeAt now → role db company user ≠ none →
        role db' company' user' = role db company user →
          toString company ++ toString user = toString company' ++ toString user' → company' = company ∧ user' = user) := by
  constructor
  · intro h hrecent hrole hsame hreads
    obtain ⟨isAdmin, hadmin⟩ := Option.ne_none_iff_exists'.mp hrole
    have hmade : adminRequestTokenGenerator.makeToken signing madeAt (adminRequestHashValue db company user) =
        some (adminRequestTokenGenerator.makeTokenWithTimestamp signing (numSeconds madeAt)
          (adminRequestValue company user isAdmin (numSeconds madeAt))) := by
      rw [TokenGenerator.makeToken, adminRequestHashValue_eq, hadmin]
      rfl
    refine h _ hmade ?_
    rw [TokenGenerator.checkToken_makeTokenWithTimestamp (numSeconds_lt madeAt), adminRequestHashValue_eq, hsame, hadmin,
      Option.map_some, Option.map_some, Option.some.injEq, Bool.and_eq_true, decide_eq_true_eq, Bool.not_eq_true',
      isExpired_eq_false]
    exact ⟨adminRequestValue_inj.mpr ⟨hreads.symm, rfl⟩, hrecent⟩
  · intro h token hmade haccepted
    rw [TokenGenerator.makeToken, adminRequestHashValue_eq, Option.map_map] at hmade
    obtain ⟨isAdmin, hadmin, rfl⟩ := Option.map_eq_some_iff.mp hmade
    simp only [Function.comp] at haccepted
    rw [TokenGenerator.checkToken_makeTokenWithTimestamp (numSeconds_lt madeAt), adminRequestHashValue_eq,
      Option.map_map] at haccepted
    obtain ⟨isAdmin', hadmin', hchecks⟩ := Option.map_eq_some_iff.mp haccepted
    simp only [Function.comp, Bool.and_eq_true, decide_eq_true_eq, Bool.not_eq_true', isExpired_eq_false] at hchecks
    obtain ⟨hreads, rfl⟩ := adminRequestValue_inj.mp hchecks.1
    exact h hchecks.2 (hadmin ▸ Option.some_ne_none _) (hadmin'.trans hadmin.symm) hreads.symm

/-- The check of a token of the administrator role answers, unless it is about someone who is no active member. -/
theorem checkAdminRequestToken_isSome_iff {db : Db} {company user : Nat} {now : Instant} {token : String} :
    (adminRequestTokenGenerator.checkToken signing now (adminRequestHashValue db company user) token).isSome ↔
      role db company user ≠ none ∨ TokenGenerator.timestamp signing token = none := by
  rw [Option.isSome_iff_ne_none, ne_eq, TokenGenerator.checkToken_eq_none]
  simp only [adminRequestHashValue_eq, Option.map_eq_none_iff]
  constructor
  · intro h
    cases htimestamp : TokenGenerator.timestamp signing token with
    | none => exact Or.inr rfl
    | some timestamp =>
        refine Or.inl fun hrole => h ⟨?_, timestamp, htimestamp, hrole⟩
        rintro rfl
        cases htimestamp
  · rintro (hmember | hnone) ⟨-, timestamp, htimestamp, hrole⟩
    · exact hmember hrole
    · rw [hnone] at htimestamp
      cases htimestamp

variable (signing localdate)

/-- The tokens open what they were made for exactly when the two numbers that were signed are not read as two others, the
check answers exactly when it is about an active member or the token has no timestamp, and a token is of use once in the
runs where no member loses the role that a recent link gave. -/
theorem links_open_iff :
    (∀ company members madeAt company' members' now,
      SignupOpensOnly signing company members madeAt company' members' now ↔
        (Recent companySignupTokenGenerator madeAt now →
          toString company ++ toString members = toString company' ++ toString members' →
            company' = company ∧ members' = members)) ∧
      (∀ db company user madeAt db' company' user' now,
        AdminRequestOpensOnly signing db company user madeAt db' company' user' now ↔
          (Recent adminRequestTokenGenerator madeAt now → role db company user ≠ none →
            role db' company' user' = role db company user →
              toString company ++ toString user = toString company' ++ toString user' →
                company' = company ∧ user' = user)) ∧
      (∀ s s' actions, s.links = [] → s.promotions = [] →
        AllSteps (State.step signing localdate) (State.Spares signing) s actions →
          run (State.step signing localdate) s actions = some s' → OncePerToken s') ∧
      ∀ db company user now token,
        (adminRequestTokenGenerator.checkToken signing now (adminRequestHashValue db company user) token).isSome ↔
          role db company user ≠ none ∨ TokenGenerator.timestamp signing token = none := by
  refine ⟨fun _ _ _ _ _ _ => signupOpensOnly_iff, fun _ _ _ _ _ _ _ _ => adminRequestOpensOnly_iff, ?_,
    fun _ _ _ _ _ => checkAdminRequestToken_isSome_iff⟩
  intro s s' actions hlinks hpromotions hspares hrun
  have hinv : s.Inv signing := by
    refine ⟨?_, ?_, ?_, ?_, ?_⟩ <;> simp [hlinks, hpromotions]
  exact (invariant_of_allSteps (fun _ _ _ hinv hspares h => inv_step hinv hspares h) hinv hspares hrun).once

/-! ## Links that open too much -/

/-- A company with an email address and one member, who is no administrator. -/
def loneMember : State where
  db := ⟨[⟨7, some "camille@example.com", .professional, true⟩],
    ⟨[⟨1, 7, 1, 0, false, true, 0, 0, none⟩], by decide, by decide⟩, []⟩
  companies := [⟨1, "contact@example.com", true⟩]
  now := 0
  links := []
  promotions := []

/-- The token of the request of the member. -/
def loneLink : String := (loneMember.requestAdminRole Symbolic.signing 7 1).getD ""

/-- The member asks for a link and becomes an administrator with it. -/
def promotedOnce : List Action := [.requestAdminRole 7 1, .confirmAdminRole 7 1 loneLink]

theorem links_open_promotedOnce :
    (run (State.step Symbolic.signing id) loneMember promotedOnce).map (fun s' => s'.promotions.map Promotion.token) =
        some [loneLink] ∧
      ∀ s' ∈ run (State.step Symbolic.signing id) loneMember promotedOnce, OncePerToken s' := by
  have hspares : AllSteps (State.step Symbolic.signing id) (State.Spares Symbolic.signing) loneMember promotedOnce := by
    decide +kernel
  exact ⟨by decide +kernel, fun s' hs' =>
    (links_open_iff Symbolic.signing id).2.2.1 loneMember s' promotedOnce rfl rfl hspares hs'⟩

/-- The member becomes an administrator with a link, is demoted by the support, and opens the link again. -/
def demotedThenBack : List Action :=
  [.requestAdminRole 7 1, .confirmAdminRole 7 1 loneLink, .adminSetAdminRole 9 7 1 false, .confirmAdminRole 7 1 loneLink]

theorem links_open_too_much :
    ¬ SignupOpensOnly Symbolic.signing 1 23 0 12 3 0 ∧
      (∃ s', run (State.step Symbolic.signing id) loneMember demotedThenBack = some s' ∧ ¬ OncePerToken s') ∧
      adminRequestTokenGenerator.checkToken Symbolic.signing 0 (adminRequestHashValue loneMember.db 1 8) loneLink =
        none := by
  refine ⟨?_, ?_, ?_⟩
  · intro h
    have hopens := signupOpensOnly_iff.mp h (Nat.zero_le _) (by decide)
    exact absurd hopens.1 (by decide)
  · have htwice : (run (State.step Symbolic.signing id) loneMember demotedThenBack).any
        (fun s' => !decide (OncePerToken s')) = true := by decide +kernel
    rw [Option.any_eq_true] at htwice
    obtain ⟨s', hrun, hnot⟩ := htwice
    exact ⟨s', hrun, by simpa using hnot⟩
  · decide +kernel

/-! ## Joining a company -/

/-- A professional is refused or is an active member when the request has ended, a link is of use once, and the first
member alone is an administrator. -/
structure JoinState.Sound (s : JoinState) : Prop where
  ends : ∀ i r, s.requests.lookup i = some r → Professional s.db r.user → ∀ answer, r.phase = .ended answer →
    answer = .refused ∨ answer = .joined ∧ s.db.IsMember r.company r.user
  once : (s.joined.map Joined.link).Nodup
  admin : ∀ e ∈ s.joined, e.membership.isAdmin = e.wasEmpty
  oneAdmin : s.joined.Pairwise fun e f => e.membership.organization = f.membership.organization →
    ¬ (e.membership.isAdmin = true ∧ f.membership.isAdmin = true)

/-- The user has no membership in the company yet when it is inserted. When it is committed, nobody has joined with the
same link since the link was checked and, if no active member was counted, nobody has joined the company since. -/
def JoinState.Meets (s : JoinState) : JoinAction → Prop
  | .insert i => ∀ r ∈ s.requests.lookup i, s.db.membership? r.company r.user = none
  | .commit i => ∀ r ∈ s.requests.lookup i, ∀ since isAdmin countedAt, r.phase = .inserted since isAdmin countedAt →
      (∀ e ∈ s.joined.drop since, e.link ≠ r.link) ∧
        (isAdmin = true → ∀ e ∈ s.joined.drop countedAt, e.membership.organization ≠ r.company)
  | .dispatch _ _ _ _ | .count _ | .wait _ => True

/-- A request that is under way can go on, or another one that it waits for. -/
def JoinState.GoesOn (signing : Signing) (s : JoinState) : Prop :=
  ∀ i r, s.requests.lookup i = some r → r.phase.since.isSome →
    ∃ a, JoinAction.goesOn a = true ∧ (JoinState.step signing s a).isSome

section

variable {signing : Signing} {s s' : JoinState} {i : Nat} {r : JoinRequest}

theorem JoinState.Sound.move_iff {phase : JoinPhase} (h : s.Sound) : (s.move i r phase).Sound ↔
    (Professional s.db r.user → ∀ answer, phase = .ended answer →
      answer = .refused ∨ answer = .joined ∧ s.db.IsMember r.company r.user) := by
  constructor
  · exact fun h' => h'.ends i _ (AList.lookup_insert _)
  · exact fun hphase => ⟨forall_lookup_insert hphase h.ends, h.once, h.admin, h.oneAdmin⟩

theorem link_notMem_iff {since : Nat} {link : Nat × String} (htake : ∀ e ∈ s.joined.take since, e.link ≠ link) :
    link ∉ s.joined.map Joined.link ↔ ∀ e ∈ s.joined.drop since, e.link ≠ link := by
  rw [List.mem_map]
  constructor
  · exact fun h e he hlink => h ⟨e, List.mem_of_mem_drop he, hlink⟩
  · rintro h ⟨e, he, hlink⟩
    rw [← List.take_append_drop since s.joined] at he
    rcases List.mem_append.mp he with he | he
    · exact htake e he hlink
    · exact h e he hlink

/-- The count of the active members is right when nobody has joined since, if there was none. -/
theorem isAdmin_eq_isEmpty_iff {since countedAt : Nat} {isAdmin : Bool} (hinv : s.Inv signing) (hknows : s.Knows signing r)
    (hphase : r.phase = .inserted since isAdmin countedAt) :
    isAdmin = (s.db.activeMemberships r.company).isEmpty ↔
      (isAdmin = true → ∀ e ∈ s.joined.drop countedAt, e.membership.organization ≠ r.company) := by
  obtain ⟨-, hfalse, htrue⟩ := hknows.counted (isAdmin, countedAt) (by rw [hphase]; rfl)
  cases isAdmin with
  | false => exact iff_of_true (List.isEmpty_eq_false_iff.mpr (hfalse rfl)).symm fun h => nomatch h
  | true =>
      rw [eq_comm, List.isEmpty_iff]
      constructor
      · intro hempty _ e he hcompany
        have hactive := hinv.active e (List.mem_of_mem_drop he)
        rw [hcompany, hempty] at hactive
        cases hactive
      · intro hnobody
        refine List.eq_nil_iff_forall_not_mem.mpr fun m hm => ?_
        obtain ⟨e, he, heq⟩ := htrue rfl m hm
        exact hnobody rfl e he (heq ▸ (mem_activeMemberships.mp hm).2.1)

/-- One step. -/
theorem JoinState.sound_step_iff {a : JoinAction} (hinv : s.Inv signing) (hsound : s.Sound)
    (h : s.step signing a = some s') : s'.Sound ↔ s.Meets a := by
  cases a with
  | dispatch i user company token =>
      obtain ⟨phase, rfl, hphase⟩ := dispatch_eq_some h
      refine iff_of_true (hsound.move_iff.mpr fun hprofessional answer hended => ?_) trivial
      rcases hphase with rfl | ⟨-, hnot⟩ | ⟨rfl, -⟩
      · cases hended
        exact Or.inl rfl
      · exact absurd hprofessional hnot
      · cases hended
  | count i =>
      obtain ⟨r, since, hr, hphase, rfl⟩ := count_eq_some h
      exact iff_of_true (hsound.move_iff.mpr fun _ _ hended => by cases hended) trivial
  | insert i =>
      obtain ⟨r, since, isAdmin, countedAt, hr, hphase, rfl⟩ := insert_eq_some h
      have hprofessional := (hinv.requests i r hr).professional (by rw [hphase]; rfl)
      rw [hsound.move_iff, Meets, hr]
      simp only [Option.mem_some_iff, forall_eq']
      cases hmembership : s.db.membership? r.company r.user with
      | none => exact iff_of_true (fun _ _ hended => by cases hended) rfl
      | some m =>
          refine iff_of_false (fun h => ?_) fun h => by cases h
          rcases h hprofessional .raised rfl with h | ⟨h, -⟩
          · cases h
          · cases h
  | commit i =>
      obtain ⟨r, since, isAdmin, countedAt, memberships, hr, hphase, hinsert, rfl⟩ := commit_eq_some h
      have hknows := hinv.requests i r hr
      have huser : s.db.isActiveUser r.user = true := (hknows.professional (by rw [hphase]; rfl)).isActiveUser
      have htake := (hknows.since since (by rw [hphase]; rfl)).2.1
      have hinv' := hinv.committed hr hphase hinsert
      have hmeets : s.Meets (.commit i) ↔ (∀ e ∈ s.joined.drop since, e.link ≠ r.link) ∧
          (isAdmin = true → ∀ e ∈ s.joined.drop countedAt, e.membership.organization ≠ r.company) := by
        rw [Meets, hr]
        simp only [Option.mem_some_iff, forall_eq', hphase, JoinPhase.inserted.injEq]
        exact ⟨fun h => h since isAdmin countedAt ⟨rfl, rfl, rfl⟩, fun h _ _ _ heq => by
          obtain ⟨rfl, rfl, rfl⟩ := heq
          exact h⟩
      rw [hmeets, ← isAdmin_eq_isEmpty_iff hinv hknows hphase, ← link_notMem_iff htake]
      constructor
      · intro h'
        refine ⟨?_, h'.admin _ (List.mem_append_right _ List.mem_cons_self)⟩
        have honce := h'.once
        rw [committed, List.map_append, List.nodup_append] at honce
        exact fun hmem => honce.2.2 _ hmem _ List.mem_cons_self rfl
      · rintro ⟨hlink, hadmin⟩
        have hadmins : ∀ e ∈ (s.committed i r isAdmin memberships).joined, e.membership.isAdmin = e.wasEmpty := by
          intro e he
          rcases List.mem_append.mp he with he | he
          · exact hsound.admin e he
          · rw [List.mem_singleton.mp he]
            exact hadmin
        refine ⟨forall_lookup_insert (fun _ answer hended => ?_) fun j r' hj hprofessional answer hended => ?_, ?_,
          hadmins, ?_⟩
        · cases hended
          exact Or.inr ⟨rfl, _, (mem_activeMemberships_insert hinsert rfl huser).mpr (Or.inr ⟨rfl, rfl⟩), rfl⟩
        · rcases hsound.ends j r' hj hprofessional answer hended with hrefused | ⟨hjoined, m, hm, hmuser⟩
          · exact Or.inl hrefused
          · exact Or.inr ⟨hjoined, m, (mem_activeMemberships_insert hinsert rfl huser).mpr (Or.inl hm), hmuser⟩
        · rw [committed, List.map_append]
          refine List.nodup_append.mpr ⟨hsound.once, List.nodup_singleton _, fun a ha b hb hab => hlink ?_⟩
          rw [hab, List.mem_singleton.mp hb] at ha
          exact ha
        · refine hinv'.first.imp_of_mem fun {e f} _ hf hfirst hsame hboth => ?_
          rw [hadmins f hf, hfirst hsame] at hboth
          cases hboth.2
  | wait now =>
      obtain ⟨-, h⟩ := Option.ite_none_right_eq_some.mp h
      cases h
      exact iff_of_true ⟨hsound.ends, hsound.once, hsound.admin, hsound.oneAdmin⟩ trivial

/-- **Joining a company.** In every run of the requests, each ends as it should exactly when they meet the conditions, and
none waits for ever. -/
theorem soundJoins_iff (signing : Signing) (db : Db) (companies : List Company) (now : Instant)
    (actions : List JoinAction) :
    (AllStates (JoinState.step signing) JoinState.Sound (JoinState.start db companies now) actions ↔
      AllSteps (JoinState.step signing) JoinState.Meets (JoinState.start db companies now) actions) ∧
    AllStates (JoinState.step signing) (JoinState.GoesOn signing) (JoinState.start db companies now) actions := by
  constructor
  · refine allStates_iff_allSteps (J := JoinState.Inv signing) (fun _ _ _ hinv _ h => JoinState.inv_step hinv h)
      (fun _ _ _ hinv hsound h => JoinState.sound_step_iff hinv hsound h) (JoinState.inv_start db companies now) ?_
    exact ⟨fun _ _ h => (nomatch h), List.nodup_nil, fun _ h => (nomatch h), List.Pairwise.nil⟩
  · have hone : (JoinState.start db companies now).OneWriter := ⟨fun _ _ h => (nomatch h), fun _ _ _ _ h => (nomatch h)⟩
    exact (allStates_of_step (fun _ _ _ hone h => JoinState.oneWriter_step hone h) hone).mono
      fun _ hone i r hr hpending => exists_step hone hr hpending

end

/-- A company whose only member was deactivated, and the link that this user has just asked for. -/
def formerMember : Db :=
  ⟨[⟨7, some "camille@example.com", .professional, true⟩], ⟨[⟨1, 7, 1, 0, false, false, 0, 0, none⟩], by decide, by decide⟩,
    []⟩

def formerMemberLink : String :=
  (companySignupTokenGenerator.makeToken Symbolic.signing 0 (companySignupHashValue 1 1)).getD ""

theorem formerMember_raises : ¬ AllStates (JoinState.step Symbolic.signing) JoinState.Sound
    (JoinState.start formerMember [⟨1, "contact@example.com", true⟩] 0)
    [.dispatch 0 7 1 formerMemberLink, .count 0, .insert 0] := by
  intro h
  have hend : (run (JoinState.step Symbolic.signing)
      (JoinState.start formerMember [⟨1, "contact@example.com", true⟩] 0)
      [.dispatch 0 7 1 formerMemberLink, .count 0, .insert 0]).any (fun s' =>
        s'.requests.lookup 0 = some ⟨7, 1, formerMemberLink, .ended .raised⟩ &&
          (s'.db.requestUser 7).any (·.isProfessional)) = true := by decide +kernel
  obtain ⟨s', hrun, hend⟩ := (Option.any_eq_true _ _).mp hend
  rw [Bool.and_eq_true, decide_eq_true_eq] at hend
  rcases (h.last hrun).ends 0 _ hend.1 hend.2 .raised rfl with h | ⟨h, -⟩
  · cases h
  · cases h

end Itou.Tokens
