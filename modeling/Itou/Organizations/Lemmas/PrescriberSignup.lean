import Itou.Organizations.Lemmas.Members
import Itou.Organizations.PrescriberSignup
import Mathlib.Data.List.Induction

/-!
# What the signup of prescribers keeps

The session holds what the steps of the signup have answered, and the last step writes it.
-/

namespace Itou.Organizations

open Itou.Lib

/-! ## What the steps answer -/

section Answers

variable {r : SignupRequest} {kind : PrescriberOrganizationKind} {status : PrescriberAuthorizationStatus}
  {requests : List SignupRequest} {siret : String} {data : OrgData} {s s' : SignupSession}
  {answers : List (PrescriberOrganizationKind × PrescriberAuthorizationStatus)}

theorem other_mem_choosable : PrescriberOrganizationKind.other ∈ choosablePrescriberKinds := by decide

theorem chosenOrg_mem (h : r.chosenOrg = some (kind, data)) : kind ∈ choosablePrescriberKinds := by
  cases r with
  | chooseOrg siret posted organizations establishment geocoding =>
      obtain ⟨k, hk, hdata⟩ := Option.bind_eq_some_iff.mp h
      obtain ⟨d, -, hd⟩ := Option.map_eq_some_iff.mp hdata
      obtain ⟨rfl, -⟩ := Prod.mk.inj hd
      obtain ⟨text, -, hfind⟩ := Option.bind_eq_some_iff.mp (Option.filter_eq_some_iff.mp hk).1
      exact List.mem_of_find?_eq_some hfind
  | _ => cases h

theorem chosenOrg_siret {posted : Option String} {organizations : List PrescriberOrganization}
    {establishment : Option Etablissement} {geocoding : Option GeocodingData}
    (h : (SignupRequest.chooseOrg siret posted organizations establishment geocoding).chosenOrg = some (kind, data)) :
    data.siret = siret := by
  obtain ⟨k, -, hdata⟩ := Option.bind_eq_some_iff.mp h
  obtain ⟨d, hd, heq⟩ := Option.map_eq_some_iff.mp hdata
  obtain ⟨-, rfl⟩ := Prod.mk.inj heq
  unfold getOrganizationDataFromApi at hd
  split at hd
  · cases hd
  · split at hd
    · cases hd
    · cases hd
      rfl

theorem offered_of_answer (h : r.answer = some (kind, status)) : Offered kind status := by
  cases r with
  | chooseOrg siret posted organizations establishment geocoding =>
      obtain ⟨⟨k, data⟩, hchosen, heq⟩ := Option.map_eq_some_iff.mp h
      obtain ⟨rfl, rfl⟩ := Prod.mk.inj heq
      exact ⟨chosenOrg_mem (Option.filter_eq_some_iff.mp hchosen).1, Or.inr rfl⟩
  | chooseKind posted =>
      obtain ⟨-, heq⟩ := Option.ite_none_right_eq_some.mp h
      cases heq
      exact ⟨other_mem_choosable, Or.inl ⟨rfl, rfl⟩⟩
  | confirmAuthorization confirm =>
      simp only [SignupRequest.answer] at h
      split at h
      · cases h
        exact ⟨other_mem_choosable, Or.inr rfl⟩
      · obtain ⟨-, heq⟩ := Option.ite_none_right_eq_some.mp h
        cases heq
        exact ⟨other_mem_choosable, Or.inl ⟨rfl, rfl⟩⟩
  | _ => cases h

end Answers

/-! ## What the session says -/

/-- The kind and the status that a session has, when it has both. -/
def SignupSession.answers (s : SignupSession) :
    List (PrescriberOrganizationKind × PrescriberAuthorizationStatus) :=
  s.kind.toList.flatMap fun kind => s.authorizationStatus.toList.map fun status => (kind, status)

/-- What holds of the session after some requests. -/
structure SignupSession.Sound (requests : List SignupRequest) (s : SignupSession) : Prop where
  kind : ∀ kind ∈ s.kind, kind ∈ choosablePrescriberKinds
  answers : ∀ answer ∈ s.answers, Offered answer.1 answer.2
  data : ∀ data ∈ s.prescriberOrgData, AnsweredSince requests data.siret s.answers

section Sound

variable {r : SignupRequest} {requests : List SignupRequest} {siret : String} {s s' : SignupSession}
  {answers answers' : List (PrescriberOrganizationKind × PrescriberAuthorizationStatus)}

/-- A request that chooses no organization keeps the answers that the session had, or gives the new ones. -/
theorem AnsweredSince.concat (h : AnsweredSince requests siret answers) (hr : r.chosenOrg = none)
    (hanswers : ∀ answer ∈ answers', answer ∈ answers ∨ r.answer = some answer) :
    AnsweredSince (requests ++ [r]) siret answers' := by
  obtain ⟨earlier, kind, organizations, establishment, geocoding, later, rfl, hchosen, hlater, hgiven⟩ := h
  refine ⟨earlier, kind, organizations, establishment, geocoding, later ++ [r], ?_, hchosen, ?_, ?_⟩
  · rw [List.append_assoc, List.cons_append]
  · intro r' hr'
    rcases List.mem_append.mp hr' with hr' | hr'
    · exact hlater r' hr'
    · exact (List.mem_singleton.mp hr') ▸ hr
  · intro answer hanswer
    rcases hanswers answer hanswer with hold | hnew
    · obtain ⟨r', hr', hgives⟩ := hgiven answer hold
      exact ⟨r', List.mem_append_left [r] hr', hgives⟩
    · exact ⟨r, List.mem_append_right (_ :: later) (List.mem_singleton_self r), hnew⟩

/-- A request that leaves the data alone, and the kind and the status alone or as it answers them. -/
theorem SignupSession.Sound.concat (h : s.Sound requests) (hr : r.chosenOrg = none)
    (hdata : s'.prescriberOrgData = s.prescriberOrgData) (hkind : ∀ kind ∈ s'.kind, kind ∈ choosablePrescriberKinds)
    (hanswers : ∀ answer ∈ s'.answers, answer ∈ s.answers ∨ r.answer = some answer) :
    s'.Sound (requests ++ [r]) where
  kind := hkind
  answers := by
    intro answer hanswer
    rcases hanswers answer hanswer with hold | hnew
    · exact h.answers answer hold
    · exact offered_of_answer hnew
  data := fun data hmem => (h.data data (hdata ▸ hmem)).concat hr hanswers

/-- So does one that changes nothing. -/
theorem SignupSession.Sound.unchanged (h : s.Sound requests) (hr : r.chosenOrg = none) : s.Sound (requests ++ [r]) :=
  h.concat hr rfl h.kind fun _ => Or.inl

theorem sound_fresh : SignupSession.Sound requests ⟨none, none, none⟩ where
  kind := fun _ h => nomatch h
  answers := fun _ h => nomatch h
  data := fun _ h => nomatch h

/-- One step. -/
theorem sound_update (h : s.Sound requests) (hs' : r.update s = some s') : s'.Sound (requests ++ [r]) := by
  cases r with
  | checkAlreadyExists =>
      cases hs'
      exact sound_fresh
  | chooseOrg siret posted organizations establishment geocoding =>
      simp only [SignupRequest.update] at hs'
      split at hs'
      · rename_i hnone
        cases hs'
        exact h.unchanged hnone
      · rename_i kind data hchosen
        cases hs'
        have hanswers : ∀ answer ∈ SignupSession.answers ⟨if kind = .other then none else some .notSet, some kind, some data⟩,
            (SignupRequest.chooseOrg siret posted organizations establishment geocoding).answer = some answer := by
          intro answer hanswer
          simp only [SignupRequest.answer, hchosen]
          by_cases hkind : kind = .other
          · simp [SignupSession.answers, hkind] at hanswer
          · simp only [SignupSession.answers, hkind, if_false, Option.toList_some, List.flatMap_cons, List.flatMap_nil,
              List.map_cons, List.map_nil, List.append_nil, List.mem_singleton] at hanswer
            rw [hanswer, Option.filter_some, if_pos (decide_eq_true hkind), Option.map_some]
        refine ⟨fun k hk => ?_, fun answer hanswer => offered_of_answer (hanswers answer hanswer), fun d hd => ?_⟩
        · cases hk
          exact chosenOrg_mem hchosen
        · cases hd
          refine ⟨requests, posted, organizations, establishment, geocoding, [], ?_, ?_, ?_, ?_⟩
          · rw [chosenOrg_siret hchosen]
          · rw [chosenOrg_siret hchosen, hchosen, Option.isSome_some]
          · exact fun _ hr => nomatch hr
          · intro answer hanswer
            refine ⟨_, List.mem_cons_self, ?_⟩
            rw [chosenOrg_siret hchosen]
            exact hanswers answer hanswer
  | chooseKind posted =>
      simp only [SignupRequest.update] at hs'
      split at hs'
      · cases hs'
        exact h.concat rfl rfl (fun _ hk => nomatch hk) fun _ hanswer => nomatch hanswer
      · split at hs'
        · rename_i hposted
          cases hs'
          refine h.concat rfl rfl (fun k hk => ?_) fun answer hanswer => Or.inr ?_
          · cases hk
            exact other_mem_choosable
          · rw [SignupRequest.answer, if_pos hposted, List.mem_singleton.mp hanswer]
        · cases hs'
          exact h.unchanged rfl
  | confirmAuthorization confirm =>
      simp only [SignupRequest.update] at hs'
      split at hs'
      · rename_i hconfirm
        cases hs'
        refine h.concat rfl rfl (fun k hk => ?_) fun answer hanswer => Or.inr ?_
        · cases hk
          exact other_mem_choosable
        · rw [SignupRequest.answer, if_pos hconfirm, List.mem_singleton.mp hanswer]
      · split at hs'
        · rename_i hone hconfirm
          cases hs'
          refine h.concat rfl rfl (fun k hk => ?_) fun answer hanswer => Or.inr ?_
          · cases hk
            exact other_mem_choosable
          · rw [SignupRequest.answer, if_neg hone, if_pos hconfirm, List.mem_singleton.mp hanswer]
        · cases hs'
          exact h.unchanged rfl
  | requestInvitation membershipExists =>
      obtain ⟨-, hs'⟩ := Option.ite_none_left_eq_some.mp hs'
      cases hs'
      exact h.unchanged rfl
  | joinOrg localdate now db user =>
      have hsame : s' = s := by
        simp only [SignupRequest.update] at hs'
        split at hs'
        · cases hs'
          rfl
        · rename_i hjoin
          simp only [prescriberJoinOrg] at hjoin
          repeat' split at hjoin
          all_goals cases hjoin
          all_goals cases hs'
          all_goals rfl
      exact hsame ▸ h.unchanged rfl

/-- Every run of the requests. -/
theorem sound_sessionAfter (requests : List SignupRequest) :
    ∀ s, sessionAfter requests = some s → s.Sound requests := by
  induction requests using List.reverseRecOn with
  | nil =>
      intro s hs
      cases hs
  | append_singleton requests r ih =>
      intro s hs
      rw [sessionAfter, List.foldl_append, List.foldl_cons, List.foldl_nil, ← sessionAfter] at hs
      cases hsession : sessionAfter requests with
      | none =>
          rw [hsession] at hs
          cases r with
          | checkAlreadyExists =>
              cases hs
              exact sound_fresh
          | _ => cases hs
      | some s₀ =>
          rw [hsession] at hs
          exact sound_update (ih s₀ hsession) hs

end Sound

/-! ## The last step -/

section Join

variable {localdate : Int → Int} {now : Int} {db db' : SignupDb} {user : User} {data : OrgData}
  {kind : PrescriberOrganizationKind} {status : Option PrescriberAuthorizationStatus}

theorem ne_freshPk {o : PrescriberOrganization} (h : o ∈ db.organizations) : o.pk ≠ db.freshPk := by
  have hle : o.pk ≤ (db.organizations.map (·.pk)).max?.getD 0 := List.le_max?_getD_of_mem (List.mem_map_of_mem h)
  unfold SignupDb.freshPk
  omega

theorem organizationOf_eq_some {createdBy : Nat} {o : PrescriberOrganization}
    (h : db.organizationOf data kind status createdBy = some o) :
    o.pk = db.freshPk ∧ o.siret = some data.siret ∧ o.kind = kind ∧ status = some o.authorizationStatus := by
  unfold SignupDb.organizationOf at h
  split at h
  · cases h
    exact ⟨rfl, rfl, rfl, rfl⟩
  · cases h

/-- The organization comes with its administrator. -/
theorem createAndJoin_eq_some (h : db.createAndJoin localdate now user data kind status = some db') :
    ∃ o m, db'.organizations = db.organizations ++ [o] ∧ (∀ other ∈ db.organizations, other.pk ≠ o.pk) ∧
      db.members.Writes o.pk user.pk db'.members m ∧ m.isActive ∧ m.isAdmin ∧
      o.siret = some data.siret ∧ o.kind = kind ∧ status = some o.authorizationStatus := by
  unfold SignupDb.createAndJoin at h
  split at h
  · cases h
  · rename_i o ho
    obtain ⟨hpk, hsiret, hkind, hstatus⟩ := organizationOf_eq_some ho
    split at h
    · split at h
      · cases h
      · rename_i members hmembers
        cases h
        obtain ⟨m, hwrites, hactive, hadmin⟩ := addOrActivateMembership_writes hmembers
        have hnone : db.members.activeMemberships o.pk = [] := by
          refine List.filter_eq_nil_iff.mpr fun n hn hmember => ?_
          obtain ⟨o', ho', hpk'⟩ := db.foreignKey n hn
          rw [Bool.and_eq_true, decide_eq_true_eq] at hmember
          exact ne_freshPk ho' (hpk'.trans (hmember.1.trans hpk))
        rw [hnone] at hadmin
        exact ⟨o, m, rfl, fun other hother => hpk ▸ ne_freshPk hother, hwrites, hactive, hadmin, hsiret, hkind, hstatus⟩
    · cases h

end Join

end Itou.Organizations
